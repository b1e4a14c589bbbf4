import ApiBindings.CommandLine.Run
import ApiBindings.Proofs.Settings

/-!
# All or nothing

A run writes at most one file, and only after everything else has gone through: a session leads to a
file only with the whole client at hand (`Session.generate_cases`), and saving comes last but for
the line about it (`Session.outcome_cases`). So a run that fails has changed no file, unless all
that failed is that line, and a run that writes a client has written the one that its document has
under its settings (`all_or_nothing`). All this holds for any loader of YAML and any console.
-/

namespace ApiBindings.CommandLine

/-! ## What a run is told -/

/-- Arguments that call a command by its name and have others behind it. -/
def Calls (name : String) (rest arguments : List String) : Prop :=
  arguments = name :: rest ∨ arguments = "--" :: name :: rest

section Told

variable {yaml : Yaml.Loader} {a : Arguments} {e : Environment} {isFile : String → Bool}
  {r : Request} {s : Settings} {entries : List (Scalar × Value)} {language : Option String}
  {read? : String → Option String}

/-- The entries of a file with settings, none if there is no such file. -/
def Configures (yaml : Yaml.Loader) (file : Option String) (read? : String → Option String)
    (entries : List (Scalar × Value)) : Prop :=
  match file with
  | none => entries = []
  | some file =>
    ∃ content, read? file = some content ∧ Settings.entriesOf yaml content = some entries

/-- The settings of a run: what the arguments give, else the variable that is not empty, else the
settings file, else the default. A later declaration may replace an earlier one if any of them says
so. -/
structure Decides (a : Arguments) (e : Environment) (entries : List (Scalar × Value))
    (s : Settings) : Prop where
  language : s.language = (a.value? .language <|> e.value? "SDKGEN_LANGUAGE" <|>
    Settings.textAt? "language" entries).getD "typescript"
  format : s.format = (a.value? .format <|> e.value? "SDKGEN_FORMAT" <|>
    Settings.textAt? "format" entries).getD "auto"
  apiVersion : s.apiVersion = (a.value? .apiVersion <|> e.value? "SDKGEN_API_VERSION" <|>
    Settings.textAt? "api_version" entries)
  allowRedefinition : s.allowRedefinition ↔ a.has .allowRedefinition ∨
    (e.value? "SDKGEN_ALLOW_REDEFINITION" >>= Command.truthOf) = some true ∨
    Settings.truthAt? "allow_redefinition" entries = some true

theorem valueOf_orElse (topic : Topic) (other : Option String) :
    (Command.valueOf a e topic <|> other) =
      (a.value? topic <|> (Command.variableFor topic >>= e.value?) <|> other) := by
  unfold Command.valueOf
  cases a.value? topic <;> rfl

theorem valueOf_getD (topic : Topic) (other : Option String) (fallback : String) :
    (Command.valueOf a e topic).getD (other.getD fallback) =
      (a.value? topic <|> (Command.variableFor topic >>= e.value?) <|> other).getD fallback := by
  rw [← valueOf_orElse]
  cases Command.valueOf a e topic <;> rfl

theorem tested_eq_some {test : String → Bool} {o p : Option String}
    (h : Command.tested test o = some p) : p = o := by
  cases o with
  | none => exact (Option.some.inj h).symm
  | some s =>
    simp only [Command.tested] at h
    split at h
    · exact (Option.some.inj h).symm
    · cases h

theorem isOn_eq_some {b : Bool} (h : Command.isOn a e .allowRedefinition = some b) :
    b ↔ a.has .allowRedefinition ∨
      (e.value? "SDKGEN_ALLOW_REDEFINITION" >>= Command.truthOf) = some true := by
  have hvariable : Command.variableFor .allowRedefinition >>= e.value? =
      e.value? "SDKGEN_ALLOW_REDEFINITION" := rfl
  unfold Command.isOn at h
  rw [hvariable] at h
  cases ha : a.has .allowRedefinition with
  | true => simp_all
  | false =>
    cases he : e.value? "SDKGEN_ALLOW_REDEFINITION" with
    | none => simp_all
    | some word => simp_all

theorem request_eq_some (h : Command.request a e isFile = some r) :
    a.operands = [r.document] ∧ isFile r.document ∧
      r.settingsFile = Command.valueOf a e .settingsFile ∧
      r.format = Command.valueOf a e .format ∧ r.apiVersion = Command.valueOf a e .apiVersion ∧
      Command.isOn a e .allowRedefinition = some r.allowRedefinition := by
  unfold Command.request at h
  split at h
  · rename_i document hoperands
    obtain ⟨format, hformat, h⟩ := Option.bind_eq_some_iff.1 h
    obtain ⟨allow, hallow, h⟩ := Option.bind_eq_some_iff.1 h
    obtain ⟨settingsFile, hfile, h⟩ := Option.bind_eq_some_iff.1 h
    split at h
    · rename_i hdocument
      cases h
      exact ⟨hoperands, hdocument, tested_eq_some hfile, tested_eq_some hformat, rfl, hallow⟩
    · cases h
  · cases h

theorem settings_eq_ok (h : r.settings yaml language read? = .ok s) :
    ∃ entries fromFile, Configures yaml r.settingsFile read? entries ∧
      Settings.GivenBy entries fromFile ∧
      s = fromFile.override ⟨language, r.format, r.apiVersion,
        if r.allowRedefinition then some true else none⟩ := by
  unfold Request.settings at h
  cases hfile : r.settingsFile with
  | none =>
    rw [hfile] at h
    cases h
    exact ⟨[], Settings.default, rfl, ⟨rfl, rfl, rfl, rfl⟩, rfl⟩
  | some file =>
    rw [hfile] at h
    simp only at h
    cases hread : read? file with
    | none =>
      rw [hread] at h
      cases h
    | some content =>
      rw [hread] at h
      obtain ⟨fromFile, hload, hs⟩ := bind_eq_ok.1 h
      obtain ⟨entries, hentries, hgiven⟩ := Settings.givenBy_of_load hload
      exact ⟨entries, fromFile, ⟨content, hread, hentries⟩, hgiven, (Except.ok.inj hs).symm⟩

/-- What is told comes before what the settings file says. -/
theorem decides_of_settings (hr : Command.request a e isFile = some r)
    (h : r.settings yaml (Command.valueOf a e .language) read? = .ok s) :
    ∃ entries,
      Configures yaml (a.value? .settingsFile <|> e.value? "SDKGEN_CONFIG") read? entries ∧
        Decides a e entries s := by
  obtain ⟨-, -, hfile, hformat, hversion, hallow⟩ := request_eq_some hr
  obtain ⟨entries, fromFile, hconfigures, hgiven, rfl⟩ := settings_eq_ok h
  rw [hfile] at hconfigures
  refine ⟨entries, hconfigures, ?_, ?_, ?_, ?_⟩
  · show (Command.valueOf a e .language).getD fromFile.language = _
    rw [hgiven.language]
    exact valueOf_getD .language _ _
  · show r.format.getD fromFile.format = _
    rw [hformat, hgiven.format]
    exact valueOf_getD .format _ _
  · show (r.apiVersion <|> fromFile.apiVersion) = _
    rw [hversion, hgiven.apiVersion]
    exact valueOf_orElse .apiVersion _
  · show (if r.allowRedefinition then some true else none).getD fromFile.allowRedefinition ↔ _
    rw [hgiven.allowRedefinition, ← or_assoc, ← isOn_eq_some hallow]
    cases r.allowRedefinition with
    | true => simp
    | false => cases Settings.truthAt? "allow_redefinition" entries <;> simp

end Told

/-! ## What a session comes to -/

section Sessions

variable {host : Host} {yaml : Yaml.Loader} {r : Request} {output : String}
  {language : Option String} {quiet : Bool} {read? : String → Option String}

/-- A session that writes a client is stopped by a fault, or has the client of the document under
the settings at hand and no other announcement than the line about it. -/
theorem Session.generate_cases (yaml : Yaml.Loader) (r : Request) (output : String)
    (language : Option String) (quiet : Bool) (read? : String → Option String) :
    (∃ f, (Session.generate yaml r output language quiet read?).ending = .fault f) ∨
      ∃ settings document text announcement,
        r.settings yaml language read? = .ok settings ∧ r.load yaml read? = .ok document ∧
        (clientOf document settings).result = .ok text ∧
        (∀ line ∈ announcement, line = savedLine output) ∧
        (Session.generate yaml r output language quiet read?).ending =
          .save output text announcement := by
  unfold Session.generate
  cases hs : r.settings yaml language read? with
  | error f => exact .inl ⟨f, rfl⟩
  | ok settings =>
    cases hl : Source.Language.ofText settings.language with
    | error f => exact .inl ⟨f, by simp [hl, stopped]⟩
    | ok target =>
      cases hm : (r.model yaml settings read?).result with
      | error f => exact .inl ⟨f, by simp [hl, hm]⟩
      | ok m =>
        obtain ⟨document, hdocument, hmodel⟩ := OpenApi.Reading.bind_result_eq_ok.1 hm
        refine .inr ⟨settings, document, _, if quiet then [] else [savedLine output], rfl,
          hdocument, ?_, ?_, by simp only [hl, hm]; rfl⟩
        · exact OpenApi.Reading.bind_result_eq_ok.2
            ⟨target, hl, OpenApi.Reading.bind_result_eq_ok.2 ⟨m, hmodel, rfl⟩⟩
        · cases quiet <;> simp

/-- A run fails if it ends with another exit code than zero or breaks off. -/
def Outcome.Fails (o : Outcome) : Prop :=
  o.exitCode ≠ 0 ∨ o.crash ≠ none ∨ o.unprinted ≠ none

/-- All that a run fails at is to print a line. -/
structure Outcome.LacksLine (host : Host) (line : String) (o : Outcome) : Prop where
  exitCode : o.exitCode = 1
  crash : o.crash = none
  unprinted : o.unprinted = some line
  prints : ¬ host.prints line

/-- What a session leaves behind that saves nothing. -/
structure Session.Keeps (s : Session) (files : Files) (o : Outcome) : Prop where
  files : o.files = files
  done : o.exitCode = 0 → s.ending = .done

/-- What a session leaves behind that saves a file. -/
structure Session.Saves (s : Session) (host : Host) (files : Files) (site : Site) (o : Outcome)
    (path content : String) (announcement : List String) : Prop where
  ending : s.ending = .save path content announcement
  files : o.files = files.put (site.place path) content
  fails : o.Fails → ∃ line ∈ announcement, o.LacksLine host line

theorem Session.finish_cases (host : Host) (s : Session) (files : Files) (site : Site) :
    s.Keeps files (s.finish host files site) ∨
      ∃ path content announcement,
        s.Saves host files site (s.finish host files site) path content announcement := by
  unfold Session.finish
  cases he : s.ending with
  | done => exact .inl ⟨rfl, fun _ => he⟩
  | fault f =>
    simp only
    split <;> exact .inl ⟨rfl, nofun⟩
  | save path content announcement =>
    cases hd : files.destination site path with
    | error e =>
      simp only [Files.save, hd, Except.map]
      exact .inl ⟨rfl, nofun⟩
    | ok place =>
      obtain rfl := Files.eq_place_of_destination hd
      refine .inr ⟨path, content, announcement, ?_⟩
      simp only [Files.save, hd, Except.map]
      cases hu : host.unprinted? announcement with
      | none => exact ⟨he, rfl, fun h => by simp [Outcome.Fails] at h⟩
      | some line =>
        have hprints := List.find?_some hu
        exact ⟨he, rfl, fun _ =>
          ⟨line, List.mem_of_find?_eq_some hu, rfl, rfl, rfl, by simpa using hprints⟩⟩

/-- A session leaves the files as they are, or saves one. -/
theorem Session.outcome_cases (host : Host) (s : Session) (files : Files) (site : Site) :
    s.Keeps files (s.outcome host files site) ∨
      ∃ path content announcement,
        s.Saves host files site (s.outcome host files site) path content announcement := by
  unfold Session.outcome
  split
  · exact .inl ⟨rfl, nofun⟩
  · exact s.finish_cases host files site

/-- A session that writes a client fails with the files as they are, or has the client in its output
and can only fail at the line about it. -/
theorem Session.outcome_generate {files : Files} {site : Site} {o : Outcome}
    (ho : (Session.generate host.yaml r output language quiet (files.read? site)).outcome host files
      site = o) :
    (o.files = files ∧ o.exitCode ≠ 0) ∨
      ∃ settings document text,
        r.settings host.yaml language (files.read? site) = .ok settings ∧
        r.load host.yaml (files.read? site) = .ok document ∧
        (clientOf document settings).result = .ok text ∧
        o.files = files.put (site.place output) text ∧
        (o.Fails → o.LacksLine host (savedLine output)) := by
  subst ho
  have hcases := Session.generate_cases host.yaml r output language quiet (files.read? site)
  rcases Session.outcome_cases host _ files site with
    hkeeps | ⟨path, content, announcement, hsaves⟩
  · refine .inl ⟨hkeeps.files, fun hexit => ?_⟩
    have hdone := hkeeps.done hexit
    rcases hcases with ⟨f, hfault⟩ | ⟨_, _, _, _, -, -, -, -, hsave⟩
    · cases hfault.symm.trans hdone
    · cases hsave.symm.trans hdone
  · rcases hcases with ⟨f, hfault⟩ | ⟨settings, document, _, _, hs, hd, ht, hlines, hsame⟩
    · cases hfault.symm.trans hsaves.ending
    · cases hsame.symm.trans hsaves.ending
      refine .inr ⟨settings, document, content, hs, hd, ht, hsaves.files, fun hfails => ?_⟩
      obtain ⟨line, hline, hlacks⟩ := hsaves.fails hfails
      obtain rfl := hlines line hline
      exact hlacks

end Sessions

/-! ## Runs -/

section Runs

variable {host : Host} {arguments rest : List String} {e : Environment} {isFile : String → Bool}
  {files : Files} {site : Site} {command : Command}

theorem read_of_calls_generate (h : Calls "generate" rest arguments) :
    Command.read arguments e isFile = Command.readGenerate rest e isFile := by
  rcases h with rfl | rfl <;> rfl

theorem readGenerate_eq_some (h : Command.readGenerate rest e isFile = some command) :
    ∃ a, Arguments.read Command.generateForms rest = some a ∧
      (a.has .help ∧ command = .help ∨
        ¬ a.has .help ∧ ∃ r output, Command.request a e isFile = some r ∧
          a.value? .output = some output ∧
          command = .generate r output (Command.valueOf a e .language) (a.has .quiet)) := by
  unfold Command.readGenerate at h
  obtain ⟨a, ha, h⟩ := Option.bind_eq_some_iff.1 h
  refine ⟨a, ha, ?_⟩
  split at h
  · rename_i hhelp
    exact .inl ⟨hhelp, (Option.some.inj h).symm⟩
  · rename_i hhelp
    obtain ⟨r, hr, h⟩ := Option.bind_eq_some_iff.1 h
    obtain ⟨output, houtput, h⟩ := Option.bind_eq_some_iff.1 h
    exact .inr ⟨hhelp, r, output, hr, houtput, (Option.some.inj h).symm⟩

/-- A text is the client of the document that a run is told of, under the settings of the run. -/
def IsClient (yaml : Yaml.Loader) (a : Arguments) (e : Environment)
    (read? : String → Option String) (text : String) : Prop :=
  ∃ path content document entries settings,
    a.operands = [path] ∧ read? path = some content ∧
    Value.loadWith yaml (Path.tidy path) content = .ok document ∧
    Configures yaml (a.value? .settingsFile <|> e.value? "SDKGEN_CONFIG") read? entries ∧
    Decides a e entries settings ∧ (clientOf document settings).result = .ok text

theorem isClient_of_generate {yaml : Yaml.Loader} {a : Arguments} {r : Request}
    {settings : Settings} {document : Value} {read? : String → Option String} {text : String}
    (hr : Command.request a e isFile = some r)
    (hs : r.settings yaml (Command.valueOf a e .language) read? = .ok settings)
    (hd : r.load yaml read? = .ok document) (ht : (clientOf document settings).result = .ok text) :
    IsClient yaml a e read? text := by
  obtain ⟨hoperands, -⟩ := request_eq_some hr
  obtain ⟨entries, hconfigures, hdecides⟩ := decides_of_settings hr hs
  unfold Request.load at hd
  cases hread : read? r.document with
  | none =>
    rw [hread] at hd
    cases hd
  | some content =>
    rw [hread] at hd
    exact ⟨r.document, content, document, entries, settings, hoperands, hread, hd, hconfigures,
      hdecides, ht⟩

/-- A run writes a client: its output holds the client, and no other file has changed. -/
structure Writes (host : Host) (a : Arguments) (e : Environment) (files : Files) (site : Site)
    (output text : String) (o : Outcome) : Prop where
  given : a.value? .output = some output
  isClient : IsClient host.yaml a e (files.read? site) text
  content : o.files.content? (site.place output) = some text
  others : ∀ place, place ≠ site.place output → o.files.content? place = files.content? place

/-- A run that is to write a client keeps the files, and then fails or was asked for help, or it
writes the client. -/
theorem generate_cases (h : Calls "generate" rest arguments) {o : Outcome}
    (ho : runOn host arguments e files site = o) :
    (o.files = files ∧
      (o.exitCode = 0 → ∃ a, Arguments.read Command.generateForms rest = some a ∧ a.has .help)) ∨
    ∃ a output text, Arguments.read Command.generateForms rest = some a ∧ ¬ a.has .help ∧
      Writes host a e files site output text o ∧
      (o.Fails → o.LacksLine host (Session.savedLine output)) := by
  rw [runOn, read_of_calls_generate h] at ho
  split at ho
  · subst ho
    exact .inl ⟨rfl, nofun⟩
  · rename_i command hread
    obtain ⟨a, ha, ⟨hhelp, rfl⟩ | ⟨hhelp, r, output, hr, houtput, rfl⟩⟩ :=
      readGenerate_eq_some hread
    · subst ho
      exact .inl ⟨rfl, fun _ => ⟨a, ha, hhelp⟩⟩
    · rcases Session.outcome_generate ho with
        ⟨hfiles, hexit⟩ | ⟨settings, document, text, hs, hd, ht, hfiles, hfails⟩
      · exact .inl ⟨hfiles, fun h => absurd h hexit⟩
      · refine .inr ⟨a, output, text, ha, hhelp, ⟨houtput, ?_, ?_, ?_⟩, hfails⟩
        · exact isClient_of_generate hr hs hd ht
        · rw [hfiles, Files.content?_put_self]
        · intro place hplace
          rw [hfiles, Files.content?_put_of_ne text hplace]

end Runs

end ApiBindings.CommandLine
