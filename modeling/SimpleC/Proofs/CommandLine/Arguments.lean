import SimpleC.CommandLine.Arguments

/-!
# Options written as arguments

Options can be written as arguments, each under its long name and with its value after an
equals sign, and are read off them again. No name holds an equals sign, so that the first one
in an argument stands between the name and the value, whatever the value is.

Under the early rules there is one value that cannot be attached.
-/

namespace SimpleC.CommandLine

namespace Setting

/-- The name of a setting that is a word. -/
def longName (setting : Setting) : String :=
  (setting.names.find? fun name => 2 < name.length).getD ""

/-- The argument that gives a setting, with its value if it has one. -/
def argument : Setting × Option String → String
  | (setting, none) => setting.longName
  | (setting, some value) => setting.longName ++ "=" ++ value

end Setting

/-- The value can be attached to an option. -/
def ArgumentRules.Takes (rules : ArgumentRules) (value : String) : Prop :=
  rules = .early → value ≠ "--"

namespace Options

/-- Whether a setting is among the options, and with which value if it comes with one. -/
def value? (options : Options) : Setting → Option (Option String)
  | .help => none
  | .file => options.file?.map some
  | .staged => if options.staged then some none else none
  | .printTokens => if options.printTokens then some none else none
  | .printTree => if options.printTree then some none else none
  | .printSymbols => if options.printSymbols then some none else none
  | .dumpTree => options.dumpTree?.map some
  | .vizTree => options.vizTree?.map some
  | .vizFormat => options.vizFormat?.map some
  | .verbose => if options.verbose then some none else none

/-- The settings that make up the options, with their values. -/
def settings (options : Options) : List (Setting × Option String) :=
  Setting.all.filterMap fun setting => (options.value? setting).map (Prod.mk setting)

/-- The arguments that ask for the options. -/
def arguments (options : Options) : List String :=
  options.settings.map Setting.argument

/-- The options can be asked for under the rules: paths are not empty, a format is given, and
all values can be attached. -/
structure Writable (rules : ArgumentRules) (options : Options) : Prop where
  paths : some "" ∉ [options.file?, options.dumpTree?, options.vizTree?]
  format : options.vizFormat? ≠ none
  values : ∀ entry ∈ options.settings, ∀ value ∈ entry.2, rules.Takes value

/-- The options with one more setting. -/
def give (options : Options) : Setting × Option String → Options
  | (setting, none) => options.switchOn setting
  | (setting, some value) => options.assign (some value) setting

end Options

section Names

variable {name value : String} {setting : Setting}

theorem Setting.ofName?_eq_none (h : '=' ∈ name.toList) : Setting.ofName? name = none := by
  have hnames : ∀ entry ∈ Setting.allNames, '=' ∉ entry.1.toList := by
    decide
  rw [Setting.ofName?, Option.map_eq_none_iff, List.find?_eq_none]
  intro entry hentry hsame
  rw [← of_decide_eq_true hsame] at h
  exact hnames entry hentry h

/-- A long name begins with two hyphens, is the name of its setting, and has no equals sign. -/
theorem Setting.longName_spec (setting : Setting) :
    (∃ letter rest, setting.longName.toList = '-' :: '-' :: letter :: rest) ∧
      Setting.ofName? setting.longName = some setting ∧ '=' ∉ setting.longName.toList := by
  cases setting <;> exact ⟨⟨_, _, rfl⟩, by decide, by decide⟩

theorem Argument.cutAtEquals_append {front : List Char} (h : '=' ∉ front) (back : List Char) :
    Argument.cutAtEquals (front ++ '=' :: back) = (front, some back) := by
  induction front with
  | nil =>
      rfl
  | cons c rest ih =>
      rw [List.mem_cons, not_or] at h
      rw [List.cons_append, Argument.cutAtEquals, if_neg (Ne.symm h.1), ih h.2]

theorem Argument.ofString_longName (setting : Setting) :
    Argument.ofString setting.longName = .ok (.option setting setting.longName none) := by
  obtain ⟨⟨letter, rest, hlist⟩, hname, -⟩ := setting.longName_spec
  rw [Argument.ofString, hlist, hname]
  rfl

/-- An equals sign after a long name sets the value apart, whatever the value is. -/
theorem Argument.ofString_longName_append (setting : Setting) (value : String) :
    Argument.ofString (setting.longName ++ "=" ++ value) =
      .ok (.option setting setting.longName (some ⟨true, value.toList⟩)) := by
  obtain ⟨⟨letter, rest, hlist⟩, hname, hequals⟩ := setting.longName_spec
  have hwhole : (setting.longName ++ "=" ++ value).toList =
      setting.longName.toList ++ '=' :: value.toList := by
    simp
  have hnone : Setting.ofName? (setting.longName ++ "=" ++ value) = none :=
    Setting.ofName?_eq_none (by simp)
  have hcut : Argument.cutAtEquals (setting.longName ++ "=" ++ value).toList =
      (setting.longName.toList, some value.toList) := by
    rw [hwhole, Argument.cutAtEquals_append hequals]
  have hhyphens : (setting.longName ++ "=" ++ value).toList =
      '-' :: '-' :: (letter :: rest ++ '=' :: value.toList) := by
    rw [hwhole, hlist]
    rfl
  rw [Argument.ofString]
  simp only [hhyphens, hnone]
  rw [← hhyphens, hcut]
  simp only [String.ofList_toList, hname]

theorem Argument.ofString_argument (entry : Setting × Option String) :
    Argument.ofString (Setting.argument entry) =
      .ok (.option entry.1 entry.1.longName (entry.2.map fun value => ⟨true, value.toList⟩)) := by
  obtain ⟨setting, value?⟩ := entry
  cases value? with
  | none =>
      exact ofString_longName setting
  | some value =>
      exact ofString_longName_append setting value

/-- No written setting is taken for the mark after which nothing is an option. -/
theorem Setting.argument_ne_separator (entry : Setting × Option String) :
    Setting.argument entry ≠ "--" := by
  intro h
  obtain ⟨setting, value?⟩ := entry
  obtain ⟨⟨letter, rest, hlist⟩, -⟩ := setting.longName_spec
  have hchars := congrArg String.toList h
  cases value? with
  | none | some =>
      simp [argument, hlist] at hchars

end Names

section Reading

variable {rules : ArgumentRules} {entries : List (Setting × Option String)}

/-- A setting with its value as it is read. -/
def Setting.read (entry : Setting × Option String) : String × Argument :=
  (Setting.argument entry,
    .option entry.1 entry.1.longName (entry.2.map fun value => ⟨true, value.toList⟩))

theorem Argument.ofStrings_arguments (entries : List (Setting × Option String)) :
    Argument.ofStrings (entries.map Setting.argument) = .ok (entries.map Setting.read) := by
  induction entries with
  | nil =>
      rfl
  | cons entry rest ih =>
      rw [List.map_cons, Argument.ofStrings, if_neg (Setting.argument_ne_separator entry), ih,
        Argument.ofString_argument]
      rfl

/-- What is read in turn is given in turn. -/
theorem Reading.go_read
    (hvalued : ∀ entry ∈ entries, entry.1.takesValue = entry.2.isSome)
    (hhelp : ∀ entry ∈ entries, entry.1 ≠ .help)
    (hvalues : ∀ entry ∈ entries, ∀ value ∈ entry.2, rules.Takes value)
    (options : Options) :
    Reading.go rules ⟨options, []⟩ (entries.map Setting.read) =
      .ok (.run (entries.foldl Options.give options)) := by
  induction entries generalizing options with
  | nil =>
      rfl
  | cons entry rest ih =>
      rw [List.forall_mem_cons] at hvalued hhelp hvalues
      obtain ⟨setting, value?⟩ := entry
      have hrest := ih hvalued.2 hhelp.2 hvalues.2
      rw [List.map_cons, Setting.read, Reading.go, List.foldl_cons]
      cases value? with
      | none =>
          have hswitch : setting.takesValue = false := hvalued.1
          have hdemand : Demand.ofOption rules setting setting.longName none =
              .ok (.switches [setting] none) := by
            rw [Demand.ofOption, Demand.ofSetting, hswitch]
            rfl
          have hon : Reading.switchOn ⟨options, []⟩ [setting] =
              some ⟨options.switchOn setting, []⟩ := by
            rw [Reading.switchOn, if_neg (by simpa [eq_comm] using hhelp.1)]
            rfl
          simp only [Option.map_none, hdemand, hon]
          exact hrest _
      | some value =>
          have htakes : setting.takesValue = true := hvalued.1
          have hvalue : Demand.attachedValue rules value.toList = some value := by
            have hnot : ¬ (rules = .early ∧ value.toList = ['-', '-']) := by
              rintro ⟨hrules, hhyphens⟩
              exact hvalues.1 value rfl hrules (String.toList_injective hhyphens)
            rw [Demand.attachedValue, if_neg hnot, String.ofList_toList]
          have hdemand : Demand.ofOption rules setting setting.longName
              (some ⟨true, value.toList⟩) = .ok (.valued [] setting (some value)) := by
            rw [Demand.ofOption, if_pos htakes, hvalue]
          simp only [Option.map_some, hdemand]
          exact hrest _

end Reading

namespace Options

section Settings

variable {rules : ArgumentRules} {source : Options}

/-- Some options with one of the settings of others. -/
def copy (source target : Options) (setting : Setting) : Options :=
  ((source.value? setting).map (Prod.mk setting)).elim target target.give

theorem foldl_settings_eq (source target : Options) :
    source.settings.foldl give target = Setting.all.foldl (copy source) target := by
  rw [settings]
  generalize Setting.all = all
  induction all generalizing target with
  | nil =>
      rfl
  | cons setting rest ih =>
      rw [List.foldl_cons, ← ih, List.filterMap_cons, copy]
      cases (source.value? setting).map (Prod.mk setting) with
      | none | some =>
          rfl

/-- A setting that is copied changes what it is about. -/
theorem copy_eq (h : source.Writable rules) (target : Options) (setting : Setting) :
    copy source target setting =
      match setting with
      | .help => target
      | .file => { target with file? := source.file?.or target.file? }
      | .staged => { target with staged := source.staged || target.staged }
      | .printTokens => { target with printTokens := source.printTokens || target.printTokens }
      | .printTree => { target with printTree := source.printTree || target.printTree }
      | .printSymbols => { target with printSymbols := source.printSymbols || target.printSymbols }
      | .dumpTree => { target with dumpTree? := source.dumpTree?.or target.dumpTree? }
      | .vizTree => { target with vizTree? := source.vizTree?.or target.vizTree? }
      | .vizFormat => { target with vizFormat? := source.vizFormat?.or target.vizFormat? }
      | .verbose => { target with verbose := source.verbose || target.verbose } := by
  have hgiven : ∀ path, some path ∈ [source.file?, source.dumpTree?, source.vizTree?] →
      givenPath (some path) = some path := by
    intro path hpath
    have hne : path ≠ "" := fun hempty => h.paths (hempty ▸ hpath)
    simp [givenPath, Option.filter, hne]
  cases setting with
  | help =>
      rfl
  | staged | printTokens | printTree | printSymbols | verbose =>
      rw [copy, value?]
      split <;> simp_all [give, switchOn]
  | vizFormat =>
      rw [copy, value?]
      cases source.vizFormat? with
      | none | some =>
          rfl
  | file =>
      rw [copy, value?]
      cases hpath : source.file? with
      | none =>
          rfl
      | some path =>
          simp [give, assign, hgiven path (by simp [hpath])]
  | dumpTree =>
      rw [copy, value?]
      cases hpath : source.dumpTree? with
      | none =>
          rfl
      | some path =>
          simp [give, assign, hgiven path (by simp [hpath])]
  | vizTree =>
      rw [copy, value?]
      cases hpath : source.vizTree? with
      | none =>
          rfl
      | some path =>
          simp [give, assign, hgiven path (by simp [hpath])]

/-- The settings that make up the options result in them, one after the other. -/
theorem foldl_settings (h : source.Writable rules) :
    source.settings.foldl give .default = source := by
  obtain ⟨format, hformat⟩ := Option.ne_none_iff_exists'.mp h.format
  calc source.settings.foldl give .default
      = Setting.all.foldl (copy source) .default := foldl_settings_eq ..
    _ = { source with vizFormat? := some format } := by
        simp [Setting.all, copy_eq h, default, hformat]
    _ = source := by
        rw [← hformat]

theorem valued_settings (options : Options) :
    ∀ entry ∈ options.settings, entry.1.takesValue = entry.2.isSome ∧ entry.1 ≠ .help := by
  intro entry hentry
  obtain ⟨setting, -, hsetting⟩ := List.mem_filterMap.mp hentry
  obtain ⟨value, hvalue, rfl⟩ := Option.map_eq_some_iff.mp hsetting
  cases setting with
  | help =>
      cases hvalue
  | file | dumpTree | vizTree | vizFormat =>
      obtain ⟨_, _, rfl⟩ := Option.map_eq_some_iff.mp hvalue
      exact ⟨rfl, nofun⟩
  | staged | printTokens | printTree | printSymbols | verbose =>
      obtain ⟨_, ⟨⟩⟩ := Option.ite_none_right_eq_some.mp hvalue
      exact ⟨rfl, nofun⟩

end Settings

/-- Options are read off the arguments that ask for them. -/
theorem ofArguments_arguments
    {rules : ArgumentRules}
    {options : Options}
    (h : options.Writable rules) :
    Request.ofArguments rules options.arguments = .ok (.run options) := by
  have hread := Reading.go_read (fun entry hentry => (options.valued_settings entry hentry).1)
    (fun entry hentry => (options.valued_settings entry hentry).2) h.values .default
  rw [Request.ofArguments, arguments, Argument.ofStrings_arguments]
  show Reading.go rules ⟨.default, []⟩ _ = _
  rw [hread, foldl_settings h]

end Options

end SimpleC.CommandLine
