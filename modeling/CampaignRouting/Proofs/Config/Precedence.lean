import CampaignRouting.Config.Load
import CampaignRouting.Proofs.Config.Layer
import CampaignRouting.Proofs.Json.Codec
import CampaignRouting.Proofs.Toml.Table
import Mathlib

/-!
# Where a setting comes from

There are four settings, each a field of one of two sections and each with a variable of the
environment that sets it. A setting is what its variable says, else what the file says, else its
default, and the other three have no part in it (`EngineConfig.load_per_field`).
-/

namespace CampaignRouting

/-! ## Settings -/

/-- The settings of the engine, one by one. -/
inductive Setting where
  | placeholderMarker
  | minHypothesisChars
  | keyPrefix
  | writeTimeout
deriving DecidableEq, Repr

namespace Setting

def sectionName : Setting → String
  | placeholderMarker | minHypothesisChars => "validation"
  | keyPrefix | writeTimeout => "publish"

def fieldName : Setting → String
  | placeholderMarker => "placeholder_marker"
  | minHypothesisChars => "min_hypothesis_chars"
  | keyPrefix => "key_prefix"
  | writeTimeout => "write_timeout_ms"

/-- The variable that sets it. -/
def variableName : Setting → String
  | placeholderMarker => "ROUTEGRAPH__VALIDATION__PLACEHOLDER_MARKER"
  | minHypothesisChars => "ROUTEGRAPH__VALIDATION__MIN_HYPOTHESIS_CHARS"
  | keyPrefix => "ROUTEGRAPH__PUBLISH__KEY_PREFIX"
  | writeTimeout => "ROUTEGRAPH__PUBLISH__WRITE_TIMEOUT_MS"

/-- Two settings are texts, two are natural numbers. -/
abbrev Value : Setting → Type
  | placeholderMarker | keyPrefix => String
  | minHypothesisChars | writeTimeout => Nat

def get (c : EngineConfig) : (s : Setting) → s.Value
  | placeholderMarker => c.validation.placeholderMarker
  | minHypothesisChars => c.validation.minHypothesisChars
  | keyPrefix => c.publish.keyPrefix
  | writeTimeout => c.publish.writeTimeout

/-- The value of the setting that a scalar stands for. -/
def convert : (s : Setting) → Json → Option s.Value
  | placeholderMarker | keyPrefix => Json.asText?
  | minHypothesisChars | writeTimeout => Json.asNatural?

/-- What a source of settings says about the setting. -/
def saidBy (s : Setting) (v : Json) : Option Json := v.field? s.sectionName s.fieldName

/-- A converted value, or a default where nothing is said. -/
def valueOr {α : Type} (default : α) (convert : Json → Option α) : Option Json → Option α
  | none => some default
  | some v => convert v

/-- The setting when `said` is what is said about it, if that is a value of its type. -/
def settled (s : Setting) (said : Option Json) : Option s.Value :=
  valueOr (s.get .default) s.convert said

variable {s s' : Setting} {c c' : EngineConfig}

/-- What holds of each setting, section by section. -/
theorem forall_iff {P : Setting → Prop} :
    (∀ s, P s) ↔
      (P .placeholderMarker ∧ P .minHypothesisChars) ∧ P .keyPrefix ∧ P .writeTimeout := by
  constructor
  · exact fun h => ⟨⟨h .placeholderMarker, h .minHypothesisChars⟩, h .keyPrefix, h .writeTimeout⟩
  · rintro ⟨⟨hmarker, hchars⟩, hkeyPrefix, htimeout⟩ s
    cases s with
    | placeholderMarker => exact hmarker
    | minHypothesisChars => exact hchars
    | keyPrefix => exact hkeyPrefix
    | writeTimeout => exact htimeout

/-- Settings are told apart by their fields. -/
theorem ext_get (h : ∀ s : Setting, s.get c = s.get c') : c = c' := by
  obtain ⟨⟨marker, chars⟩, ⟨keyPrefix, timeout⟩⟩ := c
  cases h .placeholderMarker
  cases h .minHypothesisChars
  cases h .keyPrefix
  cases h .writeTimeout
  rfl

theorem eq_of_names (h : s.sectionName = s'.sectionName ∧ s.fieldName = s'.fieldName) : s = s' := by
  cases s <;> cases s' <;> first | rfl | exact absurd h (by decide)

/-- Each variable leads to its own field. -/
theorem path?_variableName (s : Setting) :
    Environment.path? s.variableName = some [.member s.sectionName, .member s.fieldName] := by
  cases s <;> rfl

theorem variableName_inj : s.variableName = s'.variableName ↔ s = s' := by
  constructor
  · intro h
    have hpath := congrArg Environment.path? h
    rw [path?_variableName, path?_variableName] at hpath
    simp only [Option.some.injEq, List.cons.injEq, PathStep.member.injEq, and_true] at hpath
    exact eq_of_names hpath
  · exact congrArg variableName

end Setting

/-! ## Sections -/

open Setting (valueOr)

theorem bind₂_eq_ok_iff {ε α β γ : Type} {x : Except ε α} {y : Except ε β} {f : α → β → γ} {c : γ} :
    (do return f (← x) (← y)) = Except.ok c ↔ ∃ a b, x = .ok a ∧ y = .ok b ∧ f a b = c := by
  constructor
  · intro h
    obtain ⟨a, ha, h⟩ := bind_eq_ok_iff.1 h
    obtain ⟨b, hb, h⟩ := bind_eq_ok_iff.1 h
    exact ⟨a, b, ha, hb, Except.ok.inj h⟩
  · rintro ⟨a, b, ha, hb, rfl⟩
    exact bind_eq_ok_iff.2 ⟨a, ha, bind_eq_ok_iff.2 ⟨b, hb, rfl⟩⟩

/-- A field is what its section says, or its default. -/
theorem ConfigSection.read_eq_ok_iff {α : Type} {s : ConfigSection} {name : String} {place : Nat}
    {default a : α} {convert : Json → Option α} :
    s.read name place default convert = .ok a ↔
      valueOr default convert (s.field? name place) = some a := by
  unfold ConfigSection.read
  cases s.field? name place with
  | none => simp [valueOr]
  | some v => cases h : convert v <;> simp [valueOr, h]

theorem ValidationConfig.ofSection_eq_ok_iff {s : ConfigSection} {c : ValidationConfig} :
    ofSection s = .ok c ↔
      valueOr default.placeholderMarker Json.asText? (s.field? "placeholder_marker" 0) =
        some c.placeholderMarker ∧
      valueOr default.minHypothesisChars Json.asNatural? (s.field? "min_hypothesis_chars" 1) =
        some c.minHypothesisChars := by
  simp only [← ConfigSection.read_eq_ok_iff]
  refine bind₂_eq_ok_iff.trans ⟨?_, fun ⟨hmarker, hchars⟩ => ⟨_, _, hmarker, hchars, rfl⟩⟩
  rintro ⟨marker, chars, hmarker, hchars, rfl⟩
  exact ⟨hmarker, hchars⟩

theorem PublishConfig.ofSection_eq_ok_iff {s : ConfigSection} {c : PublishConfig} :
    ofSection s = .ok c ↔
      valueOr default.keyPrefix Json.asText? (s.field? "key_prefix" 0) = some c.keyPrefix ∧
      valueOr default.writeTimeout Json.asNatural? (s.field? "write_timeout_ms" 1) =
        some c.writeTimeout := by
  simp only [← ConfigSection.read_eq_ok_iff]
  refine bind₂_eq_ok_iff.trans ⟨?_, fun ⟨hkey, htimeout⟩ => ⟨_, _, hkey, htimeout, rfl⟩⟩
  rintro ⟨keyPrefix, timeout, hkey, htimeout, rfl⟩
  exact ⟨hkey, htimeout⟩

/-- Where a section is a table, its fields are those of the table. -/
theorem configSection_of_isSection {v : Json} {name : String} (h : v.IsSection name) :
    ∃ s, configSection v name = .ok s ∧
      ∀ field place, s.field? field place = v.field? name field := by
  unfold configSection Json.field?
  cases hv : v.member? name with
  | none => exact ⟨_, rfl, fun _ _ => rfl⟩
  | some w =>
    obtain ⟨ms, rfl⟩ := h w hv
    exact ⟨_, rfl, fun _ _ => rfl⟩

/-- Settings are read from a value field by field. -/
theorem EngineConfig.ofLayers_eq_ok_iff {v : Json} (hvalidation : v.IsSection "validation")
    (hpublish : v.IsSection "publish") {c : EngineConfig} :
    ofLayers v = .ok c ↔ ∀ s : Setting, s.settled (s.saidBy v) = some (s.get c) := by
  obtain ⟨validation, hv, hvfield⟩ := configSection_of_isSection hvalidation
  obtain ⟨publish, hp, hpfield⟩ := configSection_of_isSection hpublish
  have hsections : ofLayers v = .ok c ↔ ValidationConfig.ofSection validation = .ok c.validation ∧
      PublishConfig.ofSection publish = .ok c.publish := by
    rw [ofLayers, hv, hp]
    refine bind₂_eq_ok_iff.trans ⟨?_, fun ⟨hv, hp⟩ => ⟨_, _, hv, hp, rfl⟩⟩
    rintro ⟨validation, publish, hvalidation, hpublish, rfl⟩
    exact ⟨hvalidation, hpublish⟩
  rw [hsections, ValidationConfig.ofSection_eq_ok_iff, PublishConfig.ofSection_eq_ok_iff, hvfield,
    hvfield, hpfield, hpfield]
  exact (Setting.forall_iff (P := fun s => s.settled (s.saidBy v) = some (s.get c))).symm

/-! ## The environment -/

namespace Environment

/-- The text of a variable, the last one where it is set more than once. -/
def text? (env : Environment) (name : String) : Option String := env.reverse.lookup name

/-- Of the variables that concern the program, by how their names begin, only those of the settings
are set. -/
def SetsOnlySettings (env : Environment) : Prop :=
  ∀ v ∈ env, start <+: v.1.toList.map lower → ∃ s : Setting, v.1 = s.variableName

theorem text?_append_singleton (env : Environment) (name name' text : String) :
    (env ++ [(name', text)] : Environment).text? name =
      if name = name' then some text else env.text? name := by
  rw [text?, List.reverse_append, List.reverse_singleton, List.singleton_append, List.lookup_cons]
  by_cases h : name = name'
  · simp [h]
  · rw [beq_false_of_ne h, if_neg h]
    rfl

theorem path?_eq_none {name : String} (h : ¬start <+: name.toList.map lower) :
    path? name = none := by
  rw [path?, if_neg (mt List.isPrefixOf_iff_prefix.1 h)]

theorem scalar_ne_object (text : String) (ms : List (String × Json)) :
    scalar text ≠ .object ms := by
  have hother : scalar.floatOrText text ≠ .object ms := by
    unfold scalar.floatOrText
    split <;> exact nofun
  unfold scalar
  dsimp only
  split_ifs
  · exact nofun
  · exact nofun
  · split
    · split_ifs
      · exact nofun
      · exact hother
    · exact hother

/-- A source of settings with the environment over it. -/
def atop (env : Environment) (base : Json) : Json :=
  env.entries.foldl (fun base e => Json.overlayAt e.2 e.1 base) base

/-- The last variable is laid over all that come before it. -/
theorem atop_append_singleton (env : Environment) (v : String × String) (base : Json) :
    atop (env ++ [v]) base =
      match path? v.1 with
      | some path => Json.overlayAt (scalar v.2) path (env.atop base)
      | none => env.atop base := by
  unfold atop entries
  rw [List.filterMap_append, List.foldl_append]
  cases h : path? v.1 <;> simp [h]

end Environment

/-- What is said about a setting: by its variable, else by the file. -/
def Setting.said (s : Setting) (file : Json) (env : Environment) : Option Json :=
  ((env.text? s.variableName).map Environment.scalar).or (s.saidBy file)

/-- The environment sets the fields that its variables name and nothing else. -/
theorem Environment.atop_settings {env : Environment} (henv : env.SetsOnlySettings) (base : Json) :
    (∀ s : Setting, s.saidBy (env.atop base) = s.said base env) ∧
      ∀ name, base.IsSection name → (env.atop base).IsSection name := by
  -- The last variable lies over all others, so it is the one that is split off.
  induction env using List.reverseRecOn with
  | nil => exact ⟨fun _ => rfl, fun _ h => h⟩
  | append_singleton env v ih =>
    obtain ⟨hsaid, hsection⟩ := ih fun v hv => henv v (List.mem_append_left _ hv)
    obtain ⟨name, text⟩ := v
    rw [atop_append_singleton]
    by_cases hstart : start <+: name.toList.map lower
    · obtain ⟨s, rfl⟩ := henv _ (List.mem_append_right _ (.head _)) hstart
      rw [s.path?_variableName]
      refine ⟨fun s' => ?_, fun name h => (hsection name h).overlayAt _ _ (scalar_ne_object text)⟩
      have hfield := Json.field?_overlayAt (atop env base) s.sectionName s.fieldName
        s'.sectionName s'.fieldName (scalar_ne_object text)
      rw [Setting.saidBy, hfield, Setting.said, text?_append_singleton]
      by_cases hs : s' = s
      · subst hs
        simp
      · rw [if_neg (mt Setting.eq_of_names hs), if_neg (mt Setting.variableName_inj.1 hs)]
        exact hsaid s'
    · rw [path?_eq_none hstart]
      refine ⟨fun s => ?_, hsection⟩
      have hne : s.variableName ≠ name := by
        rintro rfl
        have hpath := s.path?_variableName
        rw [path?_eq_none hstart] at hpath
        cases hpath
      rw [Setting.said, text?_append_singleton, if_neg hne]
      exact hsaid s

/-! ## The file -/

/-- Tables come in the order of their keys. -/
def ConfigFormat.Ordered (format : ConfigFormat) : Prop :=
  ∀ text v, format.parse? text = some v → v.sorted = v

theorem ConfigFormat.ordered_of_mem_standard {format : ConfigFormat} (h : format ∈ standard) :
    format.Ordered := by
  intro text v hparsed
  rcases List.mem_pair.1 h with rfl | rfl
  · exact Toml.sorted_ofText? hparsed
  · cases hread : Json.Codec.json.ofText text with
    | ok w =>
      simp only [json, hread, Except.toOption, Option.some.injEq] at hparsed
      subst hparsed
      exact (Json.Codec.Gives.of_ofText hread).json.sorted_eq
    | error e => simp [json, hread, Except.toOption] at hparsed

/-- What the file at a path says, if a path is given. Its keys stand for themselves where they are
plain, else for paths. -/
inductive FileHolds (formats : List ConfigFormat) (read : String → Except FileError String) :
    Option String → Json → Prop
  | nothing : FileHolds formats read none (.object [])
  | plain {path text : String} {format : ConfigFormat} {ms : List (String × Json)}
      (found : findConfig formats read path = .ok (format, text)) (ordered : format.Ordered)
      (parsed : format.parse? (withoutMark text) = some (.object ms))
      (plain : ∀ m ∈ ms, PlainKey m.1) : FileHolds formats read (some path) (.object ms)
  | paths {path text : String} {format : ConfigFormat} {ms : List (String × Json)}
      (found : findConfig formats read path = .ok (format, text))
      (parsed : format.parse? (withoutMark text) = some (.object ms)) :
      FileHolds formats read (some path) (layered (ms.map fun m => (keyPath m.1, m.2)))

section
variable {formats formats' : List ConfigFormat} {read : String → Except FileError String}
  {path? : Option String} {file : Json} {env : Environment}

theorem EngineConfig.load_of_found {path text : String} {format : ConfigFormat}
    {ms : List (String × Json)} (found : findConfig formats read path = .ok (format, text))
    (parsed : format.parse? (withoutMark text) = some (.object ms)) (env : Environment) :
    load read (some path) env formats =
      ofLayers (env.atop (layered (ms.map fun m => (keyPath m.1, m.2)))) := by
  have hentries : fileEntries? format text = some (ms.map fun m => (keyPath m.1, m.2)) := by
    rw [fileEntries?, parsed]
  simp only [load, found, hentries, bind, Except.bind, pure, Except.pure]
  exact congrArg ofLayers (List.foldl_append ..)

/-- What is loaded depends on the file through the value that it holds alone. -/
theorem FileHolds.load_eq (h : FileHolds formats read path? file) (env : Environment) :
    EngineConfig.load read path? env formats = EngineConfig.ofLayers (env.atop file) := by
  cases h with
  | nothing => rfl
  | plain found ordered parsed plain =>
    rw [EngineConfig.load_of_found found parsed, layered_members (ordered _ _ parsed) plain]
  | paths found parsed => exact EngineConfig.load_of_found found parsed env

/-- There is no file, or it is well-formed and its sections are tables. -/
structure WellFormedFile (formats : List ConfigFormat) (read : String → Except FileError String)
    (path? : Option String) (file : Json) : Prop where
  content : FileHolds formats read path? file
  validation : file.IsSection "validation"
  publish : file.IsSection "publish"

/-- The settings are what is said about each. -/
theorem WellFormedFile.load_eq_ok_iff (hfile : WellFormedFile formats read path? file)
    (henv : env.SetsOnlySettings) {c : EngineConfig} :
    EngineConfig.load read path? env formats = .ok c ↔
      ∀ s : Setting, s.settled (s.said file env) = some (s.get c) := by
  obtain ⟨hsaid, hsection⟩ := Environment.atop_settings henv file
  rw [hfile.content.load_eq, EngineConfig.ofLayers_eq_ok_iff (hsection _ hfile.validation)
    (hsection _ hfile.publish)]
  simp only [hsaid]

/-- Settings can be chosen field by field. -/
theorem Setting.exists_get_iff {P : (s : Setting) → s.Value → Prop} :
    (∃ c, ∀ s, P s (s.get c)) ↔ ∀ s, ∃ a, P s a := by
  constructor
  · exact fun ⟨c, hc⟩ s => ⟨s.get c, hc s⟩
  · intro h
    obtain ⟨marker, hmarker⟩ := h .placeholderMarker
    obtain ⟨chars, hchars⟩ := h .minHypothesisChars
    obtain ⟨keyPrefix, hkey⟩ := h .keyPrefix
    obtain ⟨timeout, htimeout⟩ := h .writeTimeout
    let c : EngineConfig := ⟨⟨marker, chars⟩, ⟨keyPrefix, timeout⟩⟩
    exact ⟨c, (Setting.forall_iff (P := fun s => P s (s.get c))).2
      ⟨⟨hmarker, hchars⟩, hkey, htimeout⟩⟩

theorem Environment.SetsOnlySettings.append_singleton (henv : env.SetsOnlySettings) (s : Setting)
    (text : String) :
    SetsOnlySettings (env ++ [(s.variableName, text)]) := by
  intro v hv hstart
  rcases List.mem_append.1 hv with hv | hv
  · exact henv v hv hstart
  · rw [List.mem_singleton.1 hv]
    exact ⟨s, rfl⟩

/-- Settings are layered field by field: each is what its variable says, else what the file says,
else its default, and the others have no part in it. -/
structure LayeredPerField (formats : List ConfigFormat) (read : String → Except FileError String)
    (path? : Option String) (env : Environment) (file : Json) : Prop where
  loads_iff : (∃ c, EngineConfig.load read path? env formats = .ok c) ↔
    ∀ s : Setting, ∃ a, s.settled (s.said file env) = some a
  value : ∀ c, EngineConfig.load read path? env formats = .ok c →
    ∀ s : Setting, s.settled (s.said file env) = some (s.get c)
  /-- What a file says about a setting that the environment sets is of no account, be it of a wrong
  type. -/
  overridden : ∀ formats' read' path' file', WellFormedFile formats' read' path' file' →
    (∀ s : Setting, env.text? s.variableName = none → s.saidBy file' = s.saidBy file) →
    ∀ c, EngineConfig.load read' path' env formats' = .ok c ↔
      EngineConfig.load read path? env formats = .ok c
  /-- One more variable leaves the other settings as they are. -/
  siblings : ∀ (s : Setting) (text : String) (c c' : EngineConfig),
    EngineConfig.load read path? env formats = .ok c →
    EngineConfig.load read path? (env ++ [(s.variableName, text)]) formats = .ok c' →
    ∀ s' : Setting, s' ≠ s → s'.get c' = s'.get c

/-- What loading settings comes to, with a file of whatever format that there is a reader of, or
with none, and with any of the four variables set. -/
theorem EngineConfig.load_per_field (hfile : WellFormedFile formats read path? file)
    (henv : env.SetsOnlySettings) : LayeredPerField formats read path? env file where
  loads_iff := by
    simp only [hfile.load_eq_ok_iff henv]
    exact Setting.exists_get_iff (P := fun s a => s.settled (s.said file env) = some a)
  value c hc := (hfile.load_eq_ok_iff henv).1 hc
  overridden := by
    intro formats' read' path' file' hfile' hsame c
    rw [hfile.load_eq_ok_iff henv, hfile'.load_eq_ok_iff henv]
    refine forall_congr' fun s => ?_
    have hsaid : s.said file' env = s.said file env := by
      unfold Setting.said
      cases htext : env.text? s.variableName with
      | none => exact congrArg _ (hsame s htext)
      | some text => rfl
    rw [hsaid]
  siblings := by
    intro s text c c' hc hc' s' hne
    have hbefore := (hfile.load_eq_ok_iff henv).1 hc s'
    have hafter := (hfile.load_eq_ok_iff (henv.append_singleton s text)).1 hc' s'
    have hsaid : s'.said file (env ++ [(s.variableName, text)]) = s'.said file env := by
      rw [Setting.said, Environment.text?_append_singleton,
        if_neg (mt Setting.variableName_inj.1 hne)]
      rfl
    rw [hsaid, hbefore] at hafter
    exact (Option.some.inj hafter).symm

/-- A file that gives a word for the number of characters of a hypothesis. -/
def engineFile : String :=
  "[validation]\nmin_hypothesis_chars = \"many\"\nplaceholder_marker = \"draft\"\n" ++
    "[publish]\nkey_prefix = \"shop\"\n"

/-- A further format, of which one text is known. -/
def ConfigFormat.yaml : ConfigFormat where
  endings := ["yaml", "yml"]
  parse? text :=
    if text = "publish:\n  key_prefix: shop\n" then
      some (.object [("publish", .object [("key_prefix", .string "shop")])])
    else none

theorem ConfigFormat.ordered_yaml : yaml.Ordered := by
  intro text v h
  by_cases htext : text = "publish:\n  key_prefix: shop\n"
  · simp only [yaml, if_pos htext, Option.some.injEq] at h
    rw [← h]
    rfl
  · simp [yaml, htext] at h

/-- The word does no harm where the environment has a number. In a further format, whose ending is
left out of the path, a prefix leaves the time for a write at its default. -/
theorem EngineConfig.load_engineFile :
    let read := fun path => if path = "engine.toml" then .ok engineFile
      else if path = "other.yml" then .ok "publish:\n  key_prefix: shop\n"
      else .error .notFound
    let formats := .yaml :: ConfigFormat.standard
    let env : Environment := [("ROUTEGRAPH__PUBLISH__WRITE_TIMEOUT_MS", "250"), ("HOME", "/home"),
      ("ROUTEGRAPH__VALIDATION__MIN_HYPOTHESIS_CHARS", "3")]
    (∃ file, WellFormedFile formats read (some "engine.toml") file ∧
      Setting.minHypothesisChars.settled (Setting.minHypothesisChars.saidBy file) = none) ∧
    env.SetsOnlySettings ∧
    load read (some "engine.toml") env formats = .ok ⟨⟨"draft", 3⟩, ⟨"shop", 250⟩⟩ ∧
    load read (some "other") [] formats = .ok ⟨.default, ⟨"shop", 5000⟩⟩ := by
  intro read formats env
  let file : Json := .object [("publish", .object [("key_prefix", .string "shop")]),
    ("validation", .object [("min_hypothesis_chars", .string "many"),
      ("placeholder_marker", .string "draft")])]
  have hfound : findConfig formats read "engine.toml" = .ok (.toml, engineFile) := by rfl
  have hparsed : ConfigFormat.toml.parse? (withoutMark engineFile) = some file := by cbv
  have hfile : WellFormedFile formats read (some "engine.toml") file :=
    { content := .plain hfound (ConfigFormat.ordered_of_mem_standard (.head _)) hparsed (by decide)
      validation := fun _ h => ⟨_, (Option.some.inj h).symm⟩
      publish := fun _ h => ⟨_, (Option.some.inj h).symm⟩ }
  have henv : env.SetsOnlySettings := by
    refine List.forall_mem_cons.2 ⟨fun _ => ⟨.writeTimeout, rfl⟩, List.forall_mem_cons.2 ⟨?_, ?_⟩⟩
    · exact fun h => absurd h (by decide)
    · exact List.forall_mem_singleton.2 fun _ => ⟨.minHypothesisChars, rfl⟩
  have hlayered := load_per_field hfile henv
  have hsettled : ∀ s : Setting,
      s.settled (s.said file env) = some (s.get ⟨⟨"draft", 3⟩, ⟨"shop", 250⟩⟩) := by
    intro s
    cases s <;> rfl
  obtain ⟨c, hc⟩ := hlayered.loads_iff.2 fun s => ⟨_, hsettled s⟩
  have hother :
      findConfig formats read "other" = .ok (.yaml, "publish:\n  key_prefix: shop\n") := rfl
  have hother : WellFormedFile formats read (some "other")
      (.object [("publish", .object [("key_prefix", .string "shop")])]) :=
    { content := .plain hother ConfigFormat.ordered_yaml rfl (by decide)
      validation := fun _ h => absurd h (Option.some_ne_none _).symm
      publish := fun _ h => ⟨_, (Option.some.inj h).symm⟩ }
  refine ⟨⟨file, hfile, by decide +kernel⟩, henv, hc.trans (congrArg _ ?_), ?_⟩
  · refine Setting.ext_get fun s => ?_
    exact Option.some.inj ((hlayered.value c hc s).symm.trans (hsettled s))
  · refine (hother.load_eq_ok_iff (List.forall_mem_nil _)).2 fun s => ?_
    cases s <;> rfl

end

end CampaignRouting
