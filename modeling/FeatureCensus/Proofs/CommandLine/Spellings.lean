import FeatureCensus.Association
import FeatureCensus.CommandLine.Program

/-!
# Spellings of options

Words in front of the divider name options only if they are spelled exactly.  The scan of a command
line that is accepted takes each such word for what it is: a word that names an option is never the
value of another one.  So a switch is on if its spelling is one of these words, and a setting has
its default unless one of these words gives it.  A word that looks like an option but names none
ends the program before it does anything.

Main results:

- Theorem {lit}`CommandLine.tells_scan`: what the words of an accepted command line tell.
- Theorem {lit}`CommandLine.isMisspelled_iff`: which words are misspelled options.
- Theorem {lit}`CommandLine.options_by_spelling`: options follow from exact spellings alone.
-/

namespace FeatureCensus
namespace CommandLine

open Text

/-! ## What options hold -/

/-- Whether a switch is on. -/
def Options.isOn (options : Options) : Switch → Bool
  | .localOnly => options.localOnly
  | .statsOnly => options.statsOnly
  | .onlyAnalyze => options.onlyAnalyze
  | .continueOnFailure => options.continueOnFailure
  | .hideProgress => options.hideProgress

/-- That a setting has its default value: all projects, and no database. -/
def Options.IsDefault (options : Options) : Setting → Prop
  | .maxProjects => options.maxProjects? = some Survey.allProjects
  | .database => options.destination = .nowhere

/-- At first no switch is on. -/
theorem isOn_default (switch : Switch) : Options.isOn {} switch = false := by
  cases switch <;> rfl

/-- At first every setting has its default. -/
theorem isDefault_default (setting : Setting) : Options.IsDefault {} setting := by
  cases setting <;> rfl

/-- A switch that is turned on is on, and the others stay as they are. -/
theorem isOn_switchOn (options : Options) (turned switch : Switch) :
    (options.switchOn turned).isOn switch = true ↔
      options.isOn switch = true ∨ switch = turned := by
  cases turned <;> cases switch <;> simp [Options.switchOn, Options.isOn]

/-- Switches leave settings alone. -/
theorem isDefault_switchOn (options : Options) (turned : Switch) (setting : Setting) :
    (options.switchOn turned).IsDefault setting ↔ options.IsDefault setting := by
  cases turned <;> cases setting <;> rfl

/-- That of some options one setting may change, but no switch and no other setting. -/
structure Options.ChangesOnly (setting : Setting) (first second : Options) : Prop where
  isOn_eq : second.isOn = first.isOn
  isDefault : ∀ other, other ≠ setting → first.IsDefault other → second.IsDefault other

/-! ## Words that name options -/

/-- The words in front of the divider. -/
def front (words : List String) : List String :=
  words.takeWhile (· != divider)

@[simp]
theorem front_divider (words : List String) : front (divider :: words) = [] := by
  simp [front]

theorem front_cons {word : String} (h : word ≠ divider) (words : List String) :
    front (word :: words) = word :: front words := by
  simp [front, h]

/-- That a word gives a setting: it is the spelling of the setting, or begins with that and an
equals sign. -/
def Setting.IsGivenBy (setting : Setting) (word : String) : Prop :=
  word = setting.spelling ∨ setting.spelling.toList ++ ['='] <+: word.toList

/-- A switch is known by its spelling. -/
theorem mem_optionNames_switch {spelling : String} {switch : Switch} :
    (spelling, .switch switch) ∈ optionNames ↔ spelling = switch.spelling := by
  cases switch <;> simp [optionNames, Switch.all, Setting.all]

/-- A setting is known by its spelling. -/
theorem mem_optionNames_setting {spelling : String} {setting : Setting} :
    (spelling, .setting setting) ∈ optionNames ↔ spelling = setting.spelling := by
  cases setting <;> simp [optionNames, Switch.all, Setting.all]

/-- A word that names an option without a value is its spelling. -/
theorem mem_optionNames_of_classify {word : String} {name : OptionName}
    (h : classify word = .option name none) : (word, name) ∈ optionNames := by
  unfold classify at h
  split at h
  · cases h
  · split at h
    · rename_i found hfound
      cases h
      exact Association.mem_of_lookup hfound
    · split at h
      · cases h
      · split at h <;> cases h

/-- A word is divided at its first equals sign. -/
theorem eq_of_splitValue {word spelling value : String}
    (h : splitValue word = (spelling, some value)) :
    word.toList = spelling.toList ++ '=' :: value.toList := by
  obtain ⟨hspelling, hvalue⟩ := Prod.mk.inj h
  have hsplit := List.takeWhile_append_dropWhile (p := (· != '=')) (l := word.toList)
  cases hrest : word.toList.dropWhile (· != '=') with
  | nil => simp [hrest] at hvalue
  | cons c rest =>
    rw [hrest] at hvalue hsplit
    have hequals := List.head_dropWhile_not (· != '=') (l := word.toList) (by simp [hrest])
    simp only [hrest, List.head_cons, bne_eq_false_iff_eq] at hequals
    rw [← hsplit, ← hspelling, ← Option.some.inj hvalue, hequals, String.toList_ofList,
      String.toList_ofList]

/-- A word that names an option with a value begins with its spelling and an equals sign. -/
theorem exists_spelling_of_classify {word value : String} {name : OptionName}
    (h : classify word = .option name (some value)) :
    ∃ spelling, (spelling, name) ∈ optionNames ∧ spelling.toList ++ ['='] <+: word.toList := by
  unfold classify at h
  split at h
  · cases h
  · split at h
    · cases h
    · split at h
      · rename_i found given hfound hgiven
        cases h
        refine ⟨(splitValue word).1, Association.mem_of_lookup hfound, value.toList, ?_⟩
        have hsplit : splitValue word = ((splitValue word).1, some value) := Prod.ext rfl hgiven
        simp [eq_of_splitValue hsplit]
      · split at h <;> cases h

/-- A word that is read as anything but a switch is not the spelling of one. -/
theorem ne_spelling_of_classify {word : String} {switch : Switch}
    (h : classify word ≠ .option (.switch switch) none) : word ≠ switch.spelling := by
  rintro rfl
  exact h (classify_spelling switch)

/-! ## What words tell -/

/-- That between two drafts words in front of the divider have told nothing but what they are
spelled like. -/
structure Tells (words : List String) (draft final : Draft) : Prop where
  isOn_iff : ∀ switch, final.options.isOn switch = true ↔
    draft.options.isOn switch = true ∨ switch.spelling ∈ words
  isDefault : ∀ setting, draft.options.IsDefault setting →
    (∀ word ∈ words, ¬ setting.IsGivenBy word) → final.options.IsDefault setting

namespace Tells

variable {draft next final : Draft} {word : String}

/-- Words are told one after the other. -/
theorem trans {first second : List String} (hfirst : Tells first draft next)
    (hsecond : Tells second next final) : Tells (first ++ second) draft final where
  isOn_iff switch := by
    rw [hsecond.isOn_iff, hfirst.isOn_iff, List.mem_append, or_assoc]
  isDefault setting hdefault hwords := by
    refine hsecond.isDefault setting (hfirst.isDefault setting hdefault ?_) ?_
    · intro word hword
      exact hwords word (List.mem_append_left second hword)
    · intro word hword
      exact hwords word (List.mem_append_right first hword)

/-- Without words the options stay as they are. -/
theorem nil (h : next.options = draft.options) : Tells [] draft next where
  isOn_iff switch := by simp [h]
  isDefault setting hdefault _ := h ▸ hdefault

/-- A word that is no switch and changes no options tells nothing. -/
theorem of_idle (hword : ∀ switch, classify word ≠ .option (.switch switch) none)
    (h : next.options = draft.options) : Tells [word] draft next where
  isOn_iff switch := by
    have hne := ne_spelling_of_classify (hword switch)
    simp [h, hne.symm]
  isDefault setting hdefault _ := h ▸ hdefault

/-- A switch turns itself on. -/
theorem of_switch {switch : Switch} (hword : word = switch.spelling)
    (h : next.options = draft.options.switchOn switch) : Tells [word] draft next where
  isOn_iff other := by
    have hspelling : other.spelling = switch.spelling ↔ other = switch := by
      constructor
      · intro heq
        have hread := classify_spelling other
        rw [heq, classify_spelling switch] at hread
        simpa using hread.symm
      · rintro rfl
        rfl
    rw [h, isOn_switchOn, List.mem_singleton, hword, hspelling]
  isDefault setting hdefault _ := by
    rw [h, isDefault_switchOn]
    exact hdefault

/-- A word that gives a setting, read as no switch, changes this setting alone. -/
theorem of_setting {setting : Setting} (hgiven : setting.IsGivenBy word)
    (hword : ∀ switch, classify word ≠ .option (.switch switch) none)
    (h : draft.options.ChangesOnly setting next.options) : Tells [word] draft next where
  isOn_iff switch := by
    have hne := ne_spelling_of_classify (hword switch)
    simp [h.isOn_eq, hne.symm]
  isDefault other hdefault hwords := by
    refine h.isDefault other ?_ hdefault
    rintro rfl
    exact hwords word List.mem_cons_self hgiven

end Tells

/-! ## The scan -/

variable {draft next final : Draft} {word : String}

/-- The value of a setting changes this setting only. -/
theorem changesOnly_give {setting : Setting} {text : String}
    (h : draft.give setting text = .ok next) :
    draft.options.ChangesOnly setting next.options := by
  cases setting with
  | database =>
    obtain rfl := Except.ok.inj h
    constructor
    · funext switch
      cases switch <;> rfl
    · intro other hne hdefault
      cases other with
      | database => exact absurd rfl hne
      | maxProjects => exact hdefault
  | maxProjects =>
    rw [Draft.give] at h
    split at h
    · obtain rfl := Except.ok.inj h
      constructor
      · funext switch
        cases switch <;> rfl
      · intro other hne hdefault
        cases other with
        | database => exact hdefault
        | maxProjects => exact absurd rfl hne
    · cases h

/-- A setting that is left out is the only one to change. -/
theorem changesOnly_leaveOut (draft : Draft) (setting : Setting) :
    draft.options.ChangesOnly setting (draft.leaveOut setting).options := by
  constructor
  · funext switch
    cases setting <;> cases switch <;> rfl
  · intro other hne hdefault
    cases setting <;> cases other <;> first | exact hdefault | exact absurd rfl hne

/-- A word with a value is accepted only for a setting, which it gives. -/
theorem tells_takeValue {name : OptionName} {value : String}
    (hword : classify word = .option name (some value))
    (h : draft.takeValue name value = .ok next) :
    Tells [word] draft next := by
  have hswitch : ∀ switch, classify word ≠ .option (.switch switch) none := by simp [hword]
  unfold Draft.takeValue at h
  split at h
  · rename_i setting
    obtain ⟨spelling, hspelling, hbegins⟩ := exists_spelling_of_classify hword
    rw [mem_optionNames_setting] at hspelling
    have hgiven : setting.IsGivenBy word := .inr (hspelling ▸ hbegins)
    split at h
    · obtain rfl := Except.ok.inj h
      exact .of_setting hgiven hswitch (changesOnly_leaveOut draft setting)
    · exact .of_setting hgiven hswitch (changesOnly_give h)
  · cases h

/-- The spelling of a setting is accepted only before a plain word, which tells nothing else. -/
theorem tells_takeSetting {setting : Setting} {value : String}
    (hword : classify word = .option (.setting setting) none)
    (h : draft.takeOption (.setting setting) (if isValue value then some value else none) =
      .ok next) :
    value ≠ divider ∧ Tells [word, value] draft next := by
  have hswitch : ∀ switch, classify word ≠ .option (.switch switch) none := by simp [hword]
  have hgiven : setting.IsGivenBy word :=
    .inl (mem_optionNames_setting.1 (mem_optionNames_of_classify hword))
  split at h
  · rename_i hvalue
    rw [isValue, Bool.and_eq_true, bne_iff_ne, beq_iff_eq] at hvalue
    have hplain : ∀ switch, classify value ≠ .option (.switch switch) none := by simp [hvalue.2]
    have hfirst : Tells [word] draft next := .of_setting hgiven hswitch (changesOnly_give h)
    exact ⟨hvalue.1, hfirst.trans (.of_idle hplain rfl)⟩
  · cases h

/-- An option without a value is accepted only if it is a switch. -/
theorem tells_takeSwitch {name : OptionName} (hname : ∀ setting, name ≠ .setting setting)
    (hword : classify word = .option name none) (h : draft.takeOption name none = .ok next) :
    Tells [word] draft next := by
  cases name with
  | help => cases h
  | longHelp => cases h
  | switch switch =>
    obtain rfl := Except.ok.inj h
    exact .of_switch (mem_optionNames_switch.1 (mem_optionNames_of_classify hword)) rfl
  | setting setting => exact absurd rfl (hname setting)

theorem options_takePlain (draft : Draft) (word : String) :
    (draft.takePlain word).options = draft.options := by
  unfold Draft.takePlain
  split <;> rfl

theorem options_finish (draft : Draft) (words : List String) :
    (draft.finish words).options = draft.options := by
  unfold Draft.finish
  split <;> rfl

/-- The words of an accepted command line tell what they are spelled like, up to the divider. -/
theorem tells_scan {words : List String} (h : scan draft words = .ok final) :
    Tells (front words) draft final := by
  -- The induction follows the scan; a setting takes two words in one step.
  fun_induction scan draft words with
  | case1 draft =>
    obtain rfl := Except.ok.inj h
    exact .nil rfl
  | case2 draft rest =>
    obtain rfl := Except.ok.inj h
    rw [front_divider]
    exact .nil (options_finish draft rest)
  | case3 draft word rest hne hunknown ih =>
    rw [front_cons hne]
    have hfirst : Tells [word] draft (draft.addExtras [word]) :=
      .of_idle (by simp [hunknown]) rfl
    exact hfirst.trans (ih h)
  | case4 draft word rest hne hplain hlast =>
    obtain rfl := Except.ok.inj h
    rw [Bool.and_eq_true, beq_iff_eq] at hlast
    obtain ⟨more, rfl⟩ : ∃ more, rest = divider :: more := by
      cases rest with
      | nil => cases hlast.2
      | cons next more => exact ⟨more, by simpa using hlast.2⟩
    rw [front_cons hne, front_divider]
    exact .of_idle (by simp [hplain]) (options_takePlain draft word)
  | case5 draft word rest hne hplain _ ih =>
    rw [front_cons hne]
    have hfirst : Tells [word] draft (draft.takePlain word) :=
      .of_idle (by simp [hplain]) (options_takePlain draft word)
    exact hfirst.trans (ih h)
  | case6 => cases h
  | case7 draft word rest hne name value hword next hnext ih =>
    rw [front_cons hne]
    exact (tells_takeValue hword hnext).trans (ih h)
  | case8 => cases h
  | case9 => cases h
  | case10 draft word hne setting hword value more value? next hnext ih =>
    obtain ⟨hvalue, hfirst⟩ := tells_takeSetting hword hnext
    rw [front_cons hne, front_cons hvalue]
    exact hfirst.trans (ih h)
  | case11 => cases h
  | case12 draft word rest hne name hname hword next hnext ih =>
    rw [front_cons hne]
    exact (tells_takeSwitch hname hword hnext).trans (ih h)

/-- The options of an accepted command line are those that its words tell. -/
theorem tells_parse {words : List String} {options : Options} (h : parse words = .ok options) :
    ∃ final : Draft, Tells (front words) {} final ∧
      options.isOn = final.options.isOn ∧
      ∀ setting, final.options.IsDefault setting → options.IsDefault setting := by
  unfold parse at h
  split at h
  · cases h
  · cases hscan : scan {} words with
    | error stop =>
      rw [hscan] at h
      cases h
    | ok final =>
      rw [hscan] at h
      change final.toOptions = .ok options at h
      refine ⟨final, tells_scan hscan, ?_⟩
      unfold Draft.toOptions at h
      split at h
      · cases h
      · split at h
        · obtain rfl := Except.ok.inj h
          refine ⟨by funext switch; cases switch <;> rfl, ?_⟩
          intro setting hdefault
          cases setting <;> exact hdefault
        · cases h

/-! ## Misspelled options -/

/-- That a word looks like an option but is none: a hyphen and more, not only digits, that up to the
first equals sign is no option. -/
structure IsMisspelling (word : String) : Prop where
  hyphen : word.toList.head? = some '-'
  long : 1 < word.length
  notNumber : ¬ ∀ c ∈ word.toList.drop 1, isDigitLike c = true
  undeclared : (splitValue word).1 ∉ optionNames.map (·.1)

/-- Words that are not plain are a hyphen and more. -/
theorem isPlainWord_eq_false_iff :
    isPlainWord word = false ↔ word.toList.head? = some '-' ∧ 1 < word.length := by
  rw [isPlainWord, Bool.or_eq_false_iff, bne_eq_false_iff_eq]
  refine and_congr_right fun hhead => ?_
  rw [beq_eq_false_iff_ne, ne_eq, ← String.toList_inj, ← String.length_toList]
  cases hword : word.toList with
  | nil => simp [hword] at hhead
  | cons c rest =>
    rw [hword, List.head?_cons, Option.some.injEq] at hhead
    cases rest with
    | nil => simp [hhead]
    | cons d more => simp

/-- A spelling is looked up in vain if no option is spelled so. -/
theorem lookup_optionNames_eq_none_iff {spelling : String} :
    optionNames.lookup spelling = none ↔ spelling ∉ optionNames.map (·.1) := by
  rw [List.lookup_eq_none_iff]
  simp only [List.mem_map, not_exists, not_and, bne_iff_ne, ne_eq]
  constructor
  · intro hnone entry hentry heq
    exact hnone entry hentry heq.symm
  · intro hnone entry hentry heq
    exact hnone entry hentry heq.symm

/-- The misspelled options are those that look like options but are none. -/
theorem isMisspelled_iff : isMisspelled word = true ↔ IsMisspelling word := by
  rw [isMisspelled, Bool.and_eq_true, Bool.and_eq_true, Bool.not_eq_true', Bool.not_eq_true',
    isPlainWord_eq_false_iff, Option.isNone_iff_eq_none, lookup_optionNames_eq_none_iff,
    ← Bool.not_eq_true, List.all_eq_true]
  constructor
  · rintro ⟨⟨⟨hhyphen, hlong⟩, hnumber⟩, hundeclared⟩
    exact ⟨hhyphen, hlong, hnumber, hundeclared⟩
  · rintro ⟨hhyphen, hlong, hnumber, hundeclared⟩
    exact ⟨⟨⟨hhyphen, hlong⟩, hnumber⟩, hundeclared⟩

/-- The first misspelled option ends the program before it does anything. -/
theorem run_of_misspelling {words : List String} (hword : word ∈ front words)
    (h : IsMisspelling word) (surroundings : Surroundings) (w : World) :
    ∃ first ∈ front words, IsMisspelling first ∧
      run words surroundings w =
        ({ stderr := usageMessage (.unrecognized [first]), ending := .exited 2 }, w) := by
  cases hfirst : misspelled? words with
  | none =>
    have hall := List.find?_eq_none.1 hfirst
    exact absurd (isMisspelled_iff.2 h) (hall word hword)
  | some first =>
    refine ⟨first, List.mem_of_find?_eq_some hfirst,
      isMisspelled_iff.1 (List.find?_some hfirst), ?_⟩
    refine run_of_wrong ?_ surroundings w
    rw [parse, hfirst]

/-- The switches of an accepted command line are on if their spellings stand in front of the
divider, and its settings have their defaults unless a word in front of the divider gives them.  A
word there that looks like an option but is none ends the program with status 2, and the world
stays as it was. -/
theorem options_by_spelling (words : List String) :
    (∀ options, parse words = .ok options →
      (∀ switch, options.isOn switch = true ↔ switch.spelling ∈ front words) ∧
        ∀ setting, ¬ options.IsDefault setting → ∃ word ∈ front words, setting.IsGivenBy word) ∧
      ∀ word ∈ front words, IsMisspelling word → ∀ surroundings w,
        (run words surroundings w).1.ending = .exited 2 ∧ (run words surroundings w).2 = w := by
  constructor
  · intro options hparse
    obtain ⟨final, htells, hswitches, hsettings⟩ := tells_parse hparse
    constructor
    · intro switch
      rw [hswitches, htells.isOn_iff, isOn_default]
      simp
    · intro setting hchanged
      by_cases hgiven : ∃ word ∈ front words, setting.IsGivenBy word
      · exact hgiven
      · refine absurd (hsettings setting (htells.isDefault setting (isDefault_default setting) ?_))
          hchanged
        intro word hword hgives
        exact hgiven ⟨word, hword, hgives⟩
  · intro word hword hmisspelled surroundings w
    obtain ⟨first, -, -, hrun⟩ := run_of_misspelling hword hmisspelled surroundings w
    rw [hrun]
    exact ⟨rfl, rfl⟩

/-- A switch, a number below zero as the value of a setting, a setting with its value, and a switch
behind the divider, which names the corpus. -/
def dividedWords : List String :=
  ["-local", "-max-repo-count", "-5", "-db=a=b", "--", "-no-progress"]

/-- What these words ask for. -/
def dividedOptions : Options :=
  { localOnly := true, maxProjects? := some (-5), destination := .database "a=b",
    corpusPath := "-no-progress" }

/-- Behind the divider the spelling of a switch turns nothing on; the beginning of a spelling is
refused even before the help is given. -/
theorem options_by_spelling_dividedWords :
    parse dividedWords = .ok dividedOptions ∧ dividedOptions.isOn .localOnly = true ∧
      dividedOptions.isOn .hideProgress = false ∧
      (∃ word ∈ front dividedWords, Setting.database.IsGivenBy word) ∧
      IsMisspelling "-l=1" ∧ (run ["-h", "-l=1"] {} {}).1.ending = .exited 2 := by
  have hparse : parse dividedWords = .ok dividedOptions := by rfl
  have hmisspelled : IsMisspelling "-l=1" := isMisspelled_iff.1 (by decide +kernel)
  obtain ⟨hswitches, hsettings⟩ := (options_by_spelling dividedWords).1 dividedOptions hparse
  have hlocal : dividedOptions.isOn .localOnly = true := (hswitches .localOnly).2 (by decide)
  have hprogress : dividedOptions.isOn .hideProgress = false := by
    rw [← Bool.not_eq_true, hswitches]
    decide
  have hchanged : ¬ dividedOptions.IsDefault .database := by
    simp [Options.IsDefault, dividedOptions]
  refine ⟨hparse, hlocal, hprogress, hsettings .database hchanged, hmisspelled, ?_⟩
  exact ((options_by_spelling ["-h", "-l=1"]).2 "-l=1" (by decide) hmisspelled {} {}).1

end CommandLine
end FeatureCensus
