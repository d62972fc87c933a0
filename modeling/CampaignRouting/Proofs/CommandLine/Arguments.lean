import CampaignRouting.Proofs.CommandLine.Agreement

/-!
# Arguments of a publication

An option is given with its value in one argument (`optionWith`), and options that may be given
together are read back as they were given (`Arguments.TakesAll.read`). So any campaign, any route
and any domains can be asked for, also texts that look like options themselves
(`ofArguments_publish`).
-/

namespace CampaignRouting.CommandLine

/-- An option and its value in one argument. -/
def optionWith (option : String × String) : String := "--" ++ option.1 ++ "=" ++ option.2

/-- An argument is cut at its first equals sign, so the value may hold more of them. -/
theorem shape_optionWith {name value : String} (hname : '=' ∉ name.toList) :
    shape (optionWith (name, value)) = .long name.toList (some value.toList) := by
  have hchars : (optionWith (name, value)).toList =
      '-' :: '-' :: (name.toList ++ '=' :: value.toList) := by
    simp [optionWith]
  have hall : ∀ c ∈ name.toList, decide (c ≠ '=') = true := by
    intro c hc
    simpa using fun h : c = '=' => hname (h ▸ hc)
  have hdrop : (name.toList ++ '=' :: value.toList).dropWhile (· ≠ '=') = '=' :: value.toList := by
    rw [List.dropWhile_append_of_pos hall]
    rfl
  have htake : (name.toList ++ '=' :: value.toList).takeWhile (· ≠ '=') = name.toList := by
    rw [List.takeWhile_append_of_pos hall]
    simp
  have hne : name.toList ++ '=' :: value.toList ≠ [] := by simp
  obtain ⟨c, cs, hcs⟩ := List.exists_cons_of_ne_nil hne
  rw [hcs] at hchars hdrop htake
  simp only [shape, hchars, hdrop, htake]

namespace Arguments

/-- An option that may be given a value, besides some others. -/
structure Takes (known : List KnownOption) (name value : String) (others : List (String × String)) :
    Prop where
  named : '=' ∉ name.toList
  known : ∃ o, known.find? (·.name.toList = name.toList) = some o ∧ o.takesValue = true ∧
    (value = "" → o.mayBeEmpty = true) ∧ (name ∈ others.map (·.1) → o.mayRepeat = true)

/-- An option in front is added to those that are read behind it. -/
theorem Takes.read_cons {known : List KnownOption} {atCommand : Bool} {args : List String}
    {name value : String} {as : Arguments} (h : Takes known name value as.options)
    (hargs : read known atCommand args = .ok as) :
    read known atCommand (optionWith (name, value) :: args) =
      .ok { as with options := (name, value) :: as.options } := by
  obtain ⟨hnamed, o, hfind, htakes, hempty, hrepeat⟩ := h
  have hname : o.name = name := by
    simpa [String.toList_inj] using List.find?_some hfind
  have hcalled : called? known (optionWith (name, value)) = some (.ok (o, some value)) := by
    rw [called?, shape_optionWith hnamed]
    simp only [hfind, Option.map_some, String.ofList_toList]
  rw [read, hcalled]
  subst hname
  have hvalue : ¬(value = "" ∧ ¬o.mayBeEmpty = true) := fun h => h.2 (hempty h.1)
  have hfirst : ¬(as.options.any (·.1 = o.name) = true ∧ ¬o.mayRepeat = true) := by
    rintro ⟨hmem, hnot⟩
    obtain ⟨other, hother, hsame⟩ := List.any_eq_true.1 hmem
    exact hnot (hrepeat (List.mem_map.2 ⟨other, hother, of_decide_eq_true hsame⟩))
  have hadd : as.addOption o value = .ok { as with options := (o.name, value) :: as.options } :=
    (if_neg hvalue).trans (if_neg hfirst)
  simp only [htakes, if_true, hargs]
  exact hadd

/-- Options that may be given together. -/
def TakesAll (known : List KnownOption) : List (String × String) → Prop
  | [] => True
  | option :: others => Takes known option.1 option.2 others ∧ TakesAll known others

/-- Options that may be given together are read back, in their order. -/
theorem TakesAll.read {known : List KnownOption} {atCommand : Bool} {args operands : List String}
    {options : List (String × String)} (h : TakesAll known options)
    (hargs : read known atCommand args = .ok ⟨[], operands⟩) :
    read known atCommand (options.map optionWith ++ args) = .ok ⟨options, operands⟩ := by
  induction options with
  | nil => exact hargs
  | cons option options ih => exact h.1.read_cons (ih h.2)

end Arguments

/-- The options of a publication. -/
def publishGiven (settings context : Option String) (campaign : String) (route : Option String)
    (domains : List String) : List (String × String) :=
  settings.toList.map ("settings", ·) ++ (context.toList.map ("context", ·) ++
    ("campaign-id", campaign) :: (route.toList.map ("route", ·) ++ domains.map ("domain", ·)))

/-- Arguments that ask for a publication. -/
def publishArguments (config settings context : Option String) (graph campaign : String)
    (route : Option String) (domains : List String) : List String :=
  (config.toList.map ("config", ·)).map optionWith ++ "publish" ::
    ((publishGiven settings context campaign route domains).map optionWith ++ ["--", graph])

section
variable {config settings context : Option String} {graph : String} (campaign : String)
  (route : Option String) (domains : List String)

theorem takes_publishOption {o : KnownOption} (ho : o ∈ Command.publishOptions) {value : String}
    {others : List (String × String)} (hvalue : value = "" → o.mayBeEmpty = true)
    (hothers : o.name ∈ others.map (·.1) → o.mayRepeat = true) :
    Arguments.Takes Command.publishOptions o.name value others := by
  simp only [Command.publishOptions, List.mem_cons, List.not_mem_nil, or_false] at ho
  rcases ho with rfl | rfl | rfl | rfl | rfl
  all_goals exact ⟨by decide, _, rfl, rfl, hvalue, hothers⟩

/-- All options of a publication may be given together; only those with paths must not be empty. -/
theorem takesAll_publishGiven (hsettings : "" ∉ settings) (hcontext : "" ∉ context) :
    Arguments.TakesAll Command.publishOptions
      (publishGiven settings context campaign route domains) := by
  have hdomains : Arguments.TakesAll Command.publishOptions (domains.map ("domain", ·)) := by
    induction domains with
    | nil => trivial
    | cons domain domains ih =>
      have ho : (KnownOption.text "domain").repeatable ∈ Command.publishOptions := by
        simp [Command.publishOptions]
      exact ⟨takes_publishOption ho (fun _ => rfl) fun _ => rfl, ih⟩
  have htext {name value : String} {others : List (String × String)}
      (ho : .text name ∈ Command.publishOptions) (hothers : name ∉ others.map (·.1)) :
      Arguments.Takes Command.publishOptions name value others :=
    takes_publishOption ho (fun _ => rfl) fun h => absurd h hothers
  have hpath {name value : String} {others : List (String × String)}
      (ho : .path name ∈ Command.publishOptions) (hvalue : value ≠ "")
      (hothers : name ∉ others.map (·.1)) :
      Arguments.Takes Command.publishOptions name value others :=
    takes_publishOption ho (fun h => absurd h hvalue) fun h => absurd h hothers
  have hcampaign : Arguments.TakesAll Command.publishOptions
      (("campaign-id", campaign) ::
        (route.toList.map ("route", ·) ++ domains.map ("domain", ·))) := by
    refine ⟨htext (by simp [Command.publishOptions]) (by simp), ?_⟩
    cases route with
    | none => exact hdomains
    | some r => exact ⟨htext (by simp [Command.publishOptions]) (by simp), hdomains⟩
  have hcontexts : Arguments.TakesAll Command.publishOptions
      (context.toList.map ("context", ·) ++ ("campaign-id", campaign) ::
        (route.toList.map ("route", ·) ++ domains.map ("domain", ·))) := by
    cases context with
    | none => exact hcampaign
    | some path =>
      have hne : path ≠ "" := fun h => hcontext (h ▸ rfl)
      exact ⟨hpath (by simp [Command.publishOptions]) hne (by simp), hcampaign⟩
  cases settings with
  | none => exact hcontexts
  | some path =>
    have hne : path ≠ "" := fun h => hsettings (h ▸ rfl)
    exact ⟨hpath (by simp [Command.publishOptions]) hne (by simp), hcontexts⟩

theorem lookup_publishGiven (settings context : Option String) :
    let given := publishGiven settings context campaign route domains
    given.lookup "settings" = settings ∧ given.lookup "context" = context ∧
      given.lookup "campaign-id" = some campaign ∧ given.lookup "route" = route := by
  have hdomains : ∀ name ≠ "domain", (domains.map ("domain", ·)).lookup name = none := by
    intro name hname
    simpa [List.lookup_eq_none_iff] using fun _ _ => hname
  cases settings <;> cases context <;> cases route <;>
    simp [publishGiven, List.lookup_cons, hdomains]

theorem filter_domain_publishGiven :
    ((publishGiven settings context campaign route domains).filter (·.1 = "domain")).map (·.2) =
      domains := by
  cases settings <;> cases context <;> cases route <;>
    simp [publishGiven, List.filter_map, Function.comp_def]

/-- Any publication can be asked for, if its files have names. -/
theorem ofArguments_publishCommand (hsettings : "" ∉ settings) (hcontext : "" ∉ context)
    (hgraph : graph ≠ "") :
    Command.ofArguments "publish"
        ((publishGiven settings context campaign route domains).map optionWith ++ ["--", graph]) =
      .ok (.publish graph settings context campaign route domains) := by
  -- behind the separator the path of the graph is no option, whatever it looks like
  have hseparator :
      Arguments.read Command.publishOptions false ["--", graph] = .ok ⟨[], [graph]⟩ := rfl
  have hread :=
    (takesAll_publishGiven campaign route domains hsettings hcontext).read hseparator
  have hpath : Arguments.onlyPath ⟨publishGiven settings context campaign route domains, [graph]⟩
      "graph" = .ok graph := if_neg hgraph
  obtain ⟨hs, hc, hcampaign, hroute⟩ :=
    lookup_publishGiven campaign route domains settings context
  refine bind_eq_ok_iff.2 ⟨_, hread, bind_eq_ok_iff.2 ⟨_, hpath, ?_⟩⟩
  simp only [Arguments.option?, Arguments.values, hs, hc, hcampaign, hroute,
    filter_domain_publishGiven, Option.getD_some]
  rfl

theorem configPath_given {env : Environment} {operands : List String} (hconfig : "" ∉ config)
    (henv : config = none → env.lookup Invocation.configVariable = none) :
    Invocation.configPath ⟨config.toList.map ("config", ·), operands⟩ env = .ok config := by
  have hlookup :
      Arguments.option? ⟨config.toList.map ("config", ·), operands⟩ "config" = config := by
    cases config <;> simp [Arguments.option?]
  have hpath : config.or (env.lookup Invocation.configVariable) = config := by
    cases config with
    | none => exact henv rfl
    | some path => rfl
  rw [Invocation.configPath, hlookup, hpath]
  split
  · next h => exact absurd rfl hconfig
  · rfl

/-- Any campaign, route and domains can be asked for on a command line. -/
theorem ofArguments_publish {env : Environment} (hconfig : "" ∉ config)
    (henv : config = none → env.lookup Invocation.configVariable = none)
    (hsettings : "" ∉ settings) (hcontext : "" ∉ context) (hgraph : graph ≠ "") :
    Invocation.ofArguments env
        (publishArguments config settings context graph campaign route domains) =
      .ok ⟨config, false, .publish graph settings context campaign route domains⟩ := by
  have hcommand (args : List String) :
      Arguments.read Invocation.options true ("publish" :: args) = .ok ⟨[], "publish" :: args⟩ :=
    rfl
  have hoptions : Arguments.TakesAll Invocation.options (config.toList.map ("config", ·)) := by
    cases config with
    | none => trivial
    | some path =>
      have hne : path ≠ "" := fun h => hconfig (h ▸ rfl)
      have htakes : Arguments.Takes Invocation.options "config" path [] :=
        ⟨by decide, (KnownOption.path "config").withLetter 'c', rfl, rfl, fun h => absurd h hne,
          by simp⟩
      exact ⟨htakes, trivial⟩
  have hread := hoptions.read (hcommand
    ((publishGiven settings context campaign route domains).map optionWith ++ ["--", graph]))
  have hpublish := ofArguments_publishCommand campaign route domains hsettings hcontext hgraph
  refine bind_eq_ok_iff.2 ⟨_, hread, bind_eq_ok_iff.2 ⟨_, configPath_given hconfig henv,
    bind_eq_ok_iff.2 ⟨_, hpublish, ?_⟩⟩⟩
  cases config <;> rfl

end

end CampaignRouting.CommandLine
