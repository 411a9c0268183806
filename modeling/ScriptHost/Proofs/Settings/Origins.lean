import ScriptHost.Proofs.Settings.Discovery

/-!
# Where settings come from

The names that layers remember, searched from the last one, agree with what merging does to the
settings: `LoadedSettings.loadFrom_origins`. What carries it is the account `Accounted`, that loaded
settings are those of the loaded layers laid over one another, and that each layer remembers exactly
the sections of its own file. Looking at one more file keeps the account.
-/

namespace ScriptHost

/-- A section that merging takes as a whole. Scheduled jobs are none, as they add up. -/
inductive Part where
  | locations
  | engines
  | command
  | storage
  | scheduler

namespace Part

/-- The name of a section in a settings file. -/
def name : Part → String
  | locations => "runtime"
  | engines => "engines"
  | command => "command"
  | storage => "storage"
  | scheduler => "scheduler"

/-- What a section holds. -/
def Content : Part → Type
  | locations => Locations
  | engines => EngineSettings
  | command => PollLimits
  | storage => StorageSettings
  | scheduler => SchedulerSettings

/-- What settings give for a section, if they give anything. -/
def given? : (part : Part) → Settings → Option part.Content
  | locations => Settings.locations
  | engines => Settings.engines
  | command => Settings.command
  | storage => Settings.storage
  | scheduler => Settings.scheduler

/-- What a missing section stands for. -/
def default : (part : Part) → part.Content
  | locations => Locations.default
  | engines => EngineSettings.default
  | command => PollLimits.default
  | storage => StorageSettings.default
  | scheduler => SchedulerSettings.default

/-- What a section of settings is, given or by default. -/
def value : (part : Part) → Settings → part.Content
  | locations => Settings.locationsOrDefault
  | engines => Settings.enginesOrDefault
  | command => Settings.commandOrDefault
  | storage => Settings.storageOrDefault
  | scheduler => Settings.schedulerOrDefault

variable {part : Part} {lower upper : Settings}

theorem value_eq (part : Part) (s : Settings) :
    part.value s = (part.given? s).getD part.default := by
  cases part <;> rfl

theorem given?_empty (part : Part) : part.given? .empty = none := by
  cases part <;> rfl

/-- A section of the upper settings wins. -/
theorem given?_overlaidBy (part : Part) (lower upper : Settings) :
    part.given? (lower.overlaidBy upper) = (part.given? upper <|> part.given? lower) := by
  cases part <;> rfl

/-- Settings that do not give a section leave it as it is. -/
theorem given?_foldl_of_none {uppers : List Settings}
    (h : ∀ upper ∈ uppers, part.given? upper = none) :
    part.given? (uppers.foldl Settings.overlaidBy lower) = part.given? lower := by
  induction uppers generalizing lower with
  | nil => rfl
  | cons upper uppers ih =>
      have hupper : part.given? upper = none := h upper List.mem_cons_self
      show part.given? (uppers.foldl Settings.overlaidBy (lower.overlaidBy upper)) = _
      rw [ih fun other hother => h other (List.mem_cons_of_mem _ hother), given?_overlaidBy, hupper]
      rfl

/-- The last settings that give a section decide it. -/
theorem given?_foldl_of_last {lowers uppers : List Settings} {last lowest : Settings}
    (hlast : (part.given? last).isSome) (h : ∀ upper ∈ uppers, part.given? upper = none) :
    part.given? ((lowers ++ last :: uppers).foldl Settings.overlaidBy lowest) =
      part.given? last := by
  rw [List.foldl_append, List.foldl_cons, given?_foldl_of_none h, given?_overlaidBy]
  obtain ⟨content, hcontent⟩ := Option.isSome_iff_exists.mp hlast
  rw [hcontent]
  rfl

end Part

namespace Settings

variable {s : Settings}

theorem name_mem_sectionNames_iff (part : Part) :
    part.name ∈ s.sectionNames ↔ (part.given? s).isSome := by
  cases part <;> simp [sectionNames, Part.name] <;> rfl

theorem jobs_mem_sectionNames_iff : "jobs" ∈ s.sectionNames ↔ s.jobs ≠ [] := by
  simp [sectionNames]

/-- Nothing but the sections and the scheduled jobs has a name. -/
theorem eq_of_mem_sectionNames {name : String} (h : name ∈ s.sectionNames) :
    (∃ part : Part, name = part.name) ∨ name = "jobs" := by
  have hname : name ∈ ["runtime", "engines", "command", "storage", "scheduler", "jobs"] := by
    unfold sectionNames at h
    obtain ⟨⟨other, given⟩, hentry, hgiven⟩ := List.mem_filterMap.mp h
    obtain ⟨-, rfl⟩ : given = true ∧ other = name := by simpa using hgiven
    exact List.mem_map_of_mem (f := Prod.fst) hentry
  simp only [List.mem_cons, List.not_mem_nil, or_false] at hname
  rcases hname with rfl | rfl | rfl | rfl | rfl | rfl
  · exact .inl ⟨.locations, rfl⟩
  · exact .inl ⟨.engines, rfl⟩
  · exact .inl ⟨.command, rfl⟩
  · exact .inl ⟨.storage, rfl⟩
  · exact .inl ⟨.scheduler, rfl⟩
  · exact .inr rfl

theorem jobs_foldl (lower : Settings) (uppers : List Settings) :
    (uppers.foldl overlaidBy lower).jobs = lower.jobs ++ uppers.flatMap Settings.jobs := by
  induction uppers generalizing lower with
  | nil => simp
  | cons upper uppers ih =>
      rw [List.foldl_cons, ih, List.flatMap_cons, ← List.append_assoc]
      rfl

end Settings

namespace Layer

/-- The settings that a layer gives: those in its file, if it was loaded. -/
def settings? (access : FileAccess) (layer : Layer) : Option Settings :=
  if layer.loaded then (Settings.ofFile access layer.path).toOption else none

/-- A layer whose file has a scheduled job. -/
def DefinesJob (access : FileAccess) (layer : Layer) : Prop :=
  ∃ settings, layer.settings? access = some settings ∧ settings.jobs ≠ []

end Layer

namespace LoadedSettings

/-- What loaded settings tell about their origin is true: they are the settings of the loaded layers
laid over one another, and the sections of a layer are those of its file. -/
structure Accounted (access : FileAccess) (loaded : LoadedSettings) : Prop where
  settings_eq : loaded.settings =
    (loaded.layers.filterMap (Layer.settings? access)).foldl Settings.overlaidBy .empty
  loaded_eq : ∀ layer ∈ loaded.layers, (layer.settings? access).isSome = layer.loaded
  sections_eq : ∀ layer ∈ loaded.layers,
    layer.sections = (layer.settings? access).elim [] Settings.sectionNames

variable {access : FileAccess} {loaded : LoadedSettings}

/-! ## Every way of loading keeps the account -/

theorem accounted_empty (access : FileAccess) : Accounted access empty where
  settings_eq := rfl
  loaded_eq _ h := absurd h List.not_mem_nil
  sections_eq _ h := absurd h List.not_mem_nil

/-- One more layer keeps the account if it tells the truth itself. -/
theorem Accounted.append (h : Accounted access loaded) {more : LoadedSettings} {layer : Layer}
    (hlayers : more.layers = loaded.layers ++ [layer])
    (hsettings : more.settings =
      (layer.settings? access).toList.foldl Settings.overlaidBy loaded.settings)
    (hloaded : (layer.settings? access).isSome = layer.loaded)
    (hsections : layer.sections = (layer.settings? access).elim [] Settings.sectionNames) :
    Accounted access more where
  settings_eq := by
    rw [hsettings, h.settings_eq, hlayers, List.filterMap_append, List.foldl_append]
    cases hlayer : layer.settings? access <;> simp [hlayer]
  loaded_eq other hother := by
    rw [hlayers] at hother
    rcases List.mem_append.mp hother with hother | hother
    · exact h.loaded_eq other hother
    · obtain rfl := List.mem_singleton.mp hother
      exact hloaded
  sections_eq other hother := by
    rw [hlayers] at hother
    rcases List.mem_append.mp hother with hother | hother
    · exact h.sections_eq other hother
    · obtain rfl := List.mem_singleton.mp hother
      exact hsections

/-- Looking at one more file keeps the account, whatever becomes of the file. -/
theorem Accounted.addLayer (h : Accounted access loaded) (kind : LayerKind) (path : String) :
    Accounted access (loaded.addLayer access kind path) := by
  unfold LoadedSettings.addLayer
  split
  · split
    · rename_i settings hfile
      have hlayer : Layer.settings? access ⟨kind, path, settings.sectionNames, true⟩ =
          some settings := by
        simp [Layer.settings?, hfile, Except.toOption]
      exact h.append rfl (by rw [hlayer]; rfl) (by rw [hlayer]; rfl) (by rw [hlayer]; rfl)
    · exact h.append rfl rfl rfl rfl
  · exact h.append rfl rfl rfl rfl

theorem accounted_addUserLayer (access : FileAccess) (userDir : Option String) :
    Accounted access (empty.addUserLayer access userDir) := by
  cases userDir with
  | none => exact accounted_empty access
  | some dir => exact (accounted_empty access).addLayer .user (joinPath dir userFile)

/-- Loaded settings are accounted for, wherever they come from. -/
theorem accounted_of_loadFrom {source : SettingsSource}
    (h : loadFrom access source = .ok loaded) : Accounted access loaded := by
  cases source with
  | file path =>
      cases hfile : Settings.ofFile access path with
      | error fault =>
          simp only [loadFrom, hfile] at h
          cases h
      | ok settings =>
          simp only [loadFrom, hfile] at h
          obtain rfl := Except.ok.inj h
          have hlayer : Layer.settings? access ⟨.explicit, path, settings.sectionNames, true⟩ =
              some settings := by
            simp [Layer.settings?, hfile, Except.toOption]
          refine (accounted_empty access).append rfl ?_ (by rw [hlayer]; rfl) (by rw [hlayer]; rfl)
          rw [hlayer]
          exact (Settings.empty_overlaidBy settings).symm
  | discover userDir projectDir =>
      have hlayers := (accounted_addUserLayer access userDir).addLayer .project
        (joinPath projectDir projectFile)
      simp only [loadFrom] at h
      generalize (empty.addUserLayer access userDir).addLayer access .project
        (joinPath projectDir projectFile) = found at h hlayers
      cases hchecked : found.settings.checked with
      | error fault =>
          rw [hchecked] at h
          cases h
      | ok settings =>
          rw [hchecked] at h
          obtain rfl := Except.ok.inj h
          exact hlayers

/-! ## What the account is good for -/

/-- The origin of a name is the last layer that remembers it. -/
theorem originOf?_eq_some_iff {name : String} {layer : Layer} :
    loaded.originOf? name = some layer ↔
      ∃ before after, loaded.layers = before ++ layer :: after ∧ name ∈ layer.sections ∧
        ∀ later ∈ after, name ∉ later.sections := by
  unfold originOf?
  rw [List.find?_eq_some_iff_append]
  constructor
  · rintro ⟨hname, after, before, hlayers, hlater⟩
    refine ⟨before.reverse, after.reverse, ?_, by simpa using hname, ?_⟩
    · rw [← List.reverse_reverse loaded.layers, hlayers]
      simp
    · intro later hmem
      simpa using hlater later (List.mem_reverse.mp hmem)
  · rintro ⟨before, after, hlayers, hname, hlater⟩
    refine ⟨by simpa using hname, after.reverse, before.reverse, ?_, ?_⟩
    · rw [hlayers]
      simp
    · intro later hmem
      simpa using hlater later (List.mem_reverse.mp hmem)

theorem originOf?_eq_none_iff {name : String} :
    loaded.originOf? name = none ↔ ∀ layer ∈ loaded.layers, name ∉ layer.sections := by
  simp [originOf?]

namespace Accounted

variable {part : Part} {layer : Layer}

/-- A layer remembers a name just if its file gives what the name stands for. -/
theorem mem_sections_iff (h : Accounted access loaded) (hlayer : layer ∈ loaded.layers)
    {name : String} :
    name ∈ layer.sections ↔
      ∃ settings, layer.settings? access = some settings ∧ name ∈ settings.sectionNames := by
  rw [h.sections_eq layer hlayer]
  cases layer.settings? access <;> simp

theorem jobs_mem_sections_iff (h : Accounted access loaded) (hlayer : layer ∈ loaded.layers) :
    "jobs" ∈ layer.sections ↔ layer.DefinesJob access := by
  simp only [h.mem_sections_iff hlayer, Settings.jobs_mem_sectionNames_iff, Layer.DefinesJob]

/-- The origin of a section gives it, and nothing above it does. -/
theorem given?_of_origin (h : Accounted access loaded)
    (horigin : loaded.originOf? part.name = some layer) :
    ∃ settings content, layer.settings? access = some settings ∧
      part.given? settings = some content ∧ part.given? loaded.settings = some content := by
  obtain ⟨before, after, hlayers, hname, hlater⟩ := originOf?_eq_some_iff.mp horigin
  have hmem : ∀ other ∈ layer :: after, other ∈ loaded.layers :=
    fun other hother => hlayers ▸ List.mem_append_right before hother
  obtain ⟨settings, hsettings, hgiven⟩ :=
    (h.mem_sections_iff (hmem layer List.mem_cons_self)).mp hname
  rw [Settings.name_mem_sectionNames_iff] at hgiven
  obtain ⟨content, hcontent⟩ := Option.isSome_iff_exists.mp hgiven
  have habove : ∀ upper ∈ after.filterMap (Layer.settings? access), part.given? upper = none := by
    intro upper hupper
    obtain ⟨later, hmemLater, hfile⟩ := List.mem_filterMap.mp hupper
    have hnot := hlater later hmemLater
    rw [h.mem_sections_iff (hmem later (List.mem_cons_of_mem _ hmemLater))] at hnot
    refine Option.not_isSome_iff_eq_none.mp fun hsome => hnot ⟨upper, hfile, ?_⟩
    exact (Settings.name_mem_sectionNames_iff part).mpr hsome
  refine ⟨settings, content, hsettings, hcontent, ?_⟩
  rw [h.settings_eq, hlayers, List.filterMap_append, List.filterMap_cons_some hsettings,
    Part.given?_foldl_of_last hgiven habove, hcontent]

/-- A section without an origin is missing. -/
theorem given?_of_no_origin (h : Accounted access loaded)
    (horigin : loaded.originOf? part.name = none) : part.given? loaded.settings = none := by
  rw [h.settings_eq, Part.given?_foldl_of_none, Part.given?_empty]
  intro settings hsettings
  obtain ⟨layer, hlayer, hfile⟩ := List.mem_filterMap.mp hsettings
  have hnot := originOf?_eq_none_iff.mp horigin layer hlayer
  rw [h.mem_sections_iff hlayer] at hnot
  refine Option.not_isSome_iff_eq_none.mp fun hsome => hnot ⟨settings, hfile, ?_⟩
  exact (Settings.name_mem_sectionNames_iff part).mpr hsome

end Accounted

/-- Whatever settings are loaded from, the origin that they name for a section is a layer whose file
gives the section as it is in effect, and a section without an origin is missing, so that its
default is in effect. Scheduled jobs are those of all loaded layers, and their origin is the last
layer that has any. Nothing else has an origin. -/
theorem loadFrom_origins {source : SettingsSource} (h : loadFrom access source = .ok loaded) :
    (∀ layer ∈ loaded.layers, (layer.settings? access).isSome = layer.loaded) ∧
    (∀ part : Part,
      (∀ layer, loaded.originOf? part.name = some layer →
        layer ∈ loaded.layers ∧ ∃ settings content, layer.settings? access = some settings ∧
          part.given? settings = some content ∧ part.given? loaded.settings = some content) ∧
      (loaded.originOf? part.name = none ↔ part.given? loaded.settings = none) ∧
      part.value loaded.settings = (part.given? loaded.settings).getD part.default) ∧
    loaded.settings.jobs =
      (loaded.layers.filterMap (Layer.settings? access)).flatMap Settings.jobs ∧
    (∀ layer, loaded.originOf? "jobs" = some layer ↔
      ∃ before after, loaded.layers = before ++ layer :: after ∧ layer.DefinesJob access ∧
        ∀ later ∈ after, ¬ later.DefinesJob access) ∧
    (loaded.originOf? "jobs" = none ↔ ∀ layer ∈ loaded.layers, ¬ layer.DefinesJob access) ∧
    ∀ name, (∀ part : Part, name ≠ part.name) → name ≠ "jobs" → loaded.originOf? name = none := by
  have haccount := accounted_of_loadFrom h
  refine ⟨haccount.loaded_eq, fun part => ⟨?_, ⟨?_, ?_⟩, part.value_eq loaded.settings⟩, ?_, ?_, ?_,
    ?_⟩
  · intro layer horigin
    exact ⟨List.mem_reverse.mp (List.mem_of_find?_eq_some horigin),
      haccount.given?_of_origin horigin⟩
  · exact haccount.given?_of_no_origin
  · intro hmissing
    refine Option.eq_none_iff_forall_not_mem.mpr fun layer horigin => ?_
    obtain ⟨_, content, -, -, hgiven⟩ := haccount.given?_of_origin horigin
    rw [hmissing] at hgiven
    cases hgiven
  · rw [haccount.settings_eq, Settings.jobs_foldl]
    rfl
  · intro layer
    rw [originOf?_eq_some_iff]
    refine exists_congr fun before => exists_congr fun after => and_congr_right fun hlayers => ?_
    have hmem : ∀ other ∈ layer :: after, other ∈ loaded.layers :=
      fun other hother => hlayers ▸ List.mem_append_right before hother
    refine and_congr (haccount.jobs_mem_sections_iff (hmem layer List.mem_cons_self)) ?_
    refine forall₂_congr fun later hlater => not_congr ?_
    exact haccount.jobs_mem_sections_iff (hmem later (List.mem_cons_of_mem _ hlater))
  · rw [originOf?_eq_none_iff]
    exact forall₂_congr fun layer hlayer => not_congr (haccount.jobs_mem_sections_iff hlayer)
  · intro name hparts hjobs
    refine originOf?_eq_none_iff.mpr fun layer hlayer hname => ?_
    obtain ⟨settings, -, hname⟩ := (haccount.mem_sections_iff hlayer).mp hname
    rcases Settings.eq_of_mem_sectionNames hname with ⟨part, rfl⟩ | rfl
    · exact hparts part rfl
    · exact hjobs rfl

/-- A user's file with poll limits and a scheduled job, below a project's with both as well. -/
theorem loadFrom_origins_two_files :
    ∃ access loaded user project,
      loadFrom access (.discover (some "/home") "/project") = .ok loaded ∧
      loaded.layers = [user, project] ∧
      loaded.originOf? "command" = some project ∧ loaded.settings.command = some ⟨20, 30⟩ ∧
      loaded.originOf? "scheduler" = some user ∧
      loaded.originOf? "storage" = none ∧ loaded.settings.storage = none ∧
      loaded.originOf? "jobs" = some project ∧
      loaded.settings.jobs = [⟨"/a.job", 60, 0⟩, ⟨"/b.job", 90, 0⟩] ∧
      loaded.originOf? "warnings" = none := by
  let userText := "[command]\nloop_count = 5\n[scheduler]\n" ++
    "[[jobs]]\npath = \"/a.job\"\ninterval_secs = 60\n"
  let projectText := "[command]\nwait_time_ms = 20\n" ++
    "[[jobs]]\npath = \"/b.job\"\ninterval_secs = 90\n"
  let access : FileAccess := ⟨fun _ => true, fun path =>
    .ok (if path = "/home/config.toml" then userText.toUTF8 else projectText.toUTF8)⟩
  have huserPath : joinPath "/home" userFile = "/home/config.toml" := by decide +kernel
  have hprojectPath : joinPath "/project" projectFile = "/project/scriptor.toml" := by
    decide +kernel
  have hreadUser : access.read "/home/config.toml" = .ok userText.toUTF8 :=
    congrArg Except.ok (if_pos rfl)
  have hreadProject : access.read "/project/scriptor.toml" = .ok projectText.toUTF8 :=
    congrArg Except.ok (if_neg (by decide))
  have huserText : String.fromUTF8? userText.toUTF8 = some userText := by decide +kernel
  have hprojectText : String.fromUTF8? projectText.toUTF8 = some projectText := by decide +kernel
  have huser : Finds access "/home/config.toml" (.usable
      { Settings.empty with
        command := some ⟨1000, 5⟩
        scheduler := some .default
        jobs := [⟨"/a.job", 60, 0⟩] }) :=
    .usable rfl hreadUser huserText (by decide +kernel) (by decide)
  have hproject : Finds access "/project/scriptor.toml" (.usable
      { Settings.empty with
        command := some ⟨20, 30⟩
        jobs := [⟨"/b.job", 90, 0⟩] }) :=
    .usable rfl hreadProject hprojectText (by decide +kernel) (by decide)
  have hload : loadFrom access (.discover (some "/home") "/project") = .ok
      { settings :=
          { Settings.empty with
            command := some ⟨20, 30⟩
            scheduler := some .default
            jobs := [⟨"/a.job", 60, 0⟩, ⟨"/b.job", 90, 0⟩] }
        layers :=
          [⟨.user, "/home/config.toml", ["command", "scheduler", "jobs"], true⟩,
            ⟨.project, "/project/scriptor.toml", ["command", "jobs"], true⟩]
        warnings := [] } := by
    simp only [loadFrom, addUserLayer]
    rw [huserPath, hprojectPath, addLayer_of_finds huser, addLayer_of_finds hproject]
    rfl
  obtain ⟨-, hparts, -, -, -, hothers⟩ := loadFrom_origins hload
  have hstorage := (hparts .storage).2.1.mpr rfl
  have hwarnings := hothers "warnings" (fun part => by cases part <;> decide) (by decide)
  exact ⟨access, _, _, _, hload, rfl, by decide, rfl, by decide, hstorage, rfl, by decide, rfl,
    hwarnings⟩

end LoadedSettings

end ScriptHost
