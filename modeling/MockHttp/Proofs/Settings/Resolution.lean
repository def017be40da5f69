import Mathlib.Data.List.Perm.Basic
import MockHttp.Program
/-!
# Settings that a server starts with

A report of problems names every rule that settings break, once and in one order.  The settings of a
file are checked before the command line has its say, and what comes out is checked again, so a
value of a file is never excused because the command line replaces it.
-/

namespace MockHttp

/-! ## Reading a file -/

namespace Files

theorem load_eq_ok_iff {files : Files} {path : String} {content : Bytes} :
    files.load path = .ok content ↔ files path = .ok content := by
  rw [load]
  rcases files path with (_ | _ | _) | read <;> simp

theorem ne_badSettings_of_load {files : Files} {path : String} {error : LoadError}
    (hload : files.load path = .error error) (report : List SettingsProblem) :
    error ≠ .badSettings report := by
  rintro rfl
  rw [load] at hload
  split at hload <;> cases hload

end Files

/-! ## Rules -/

/-- The place of a problem in a report. -/
def SettingsProblem.rank : SettingsProblem → Nat
  | .badBindAddress _ => 0
  | .zeroTimeout => 1
  | .badMetricsAddress _ => 2
  | .noRouteFile => 3
  | .unknownLogLevel _ => 4

namespace Settings

/-- Settings break a rule, as a problem tells it.  The case of ASCII letters does not matter in the
name of a log level. -/
inductive Breaks (settings : Settings) : SettingsProblem → Prop
  | bindAddress (haddress : Address.parse? settings.bindAddress = none) :
      settings.Breaks (.badBindAddress settings.bindAddress)
  | timeout (hseconds : settings.requestSeconds = 0) : settings.Breaks .zeroTimeout
  | metricsAddress (henabled : settings.metricsEnabled = true)
      (haddress : Address.parse? settings.metricsAddress = none) :
      settings.Breaks (.badMetricsAddress settings.metricsAddress)
  | routeFile (hfile : settings.routeFile = "") : settings.Breaks .noRouteFile
  | logLevel (hlevel : settings.logLevel.toLower ∉ logLevels) :
      settings.Breaks (.unknownLogLevel settings.logLevel)

/-- Settings that break no rule. -/
def Admissible (settings : Settings) : Prop :=
  ∀ problem, ¬ settings.Breaks problem

/-- A report that names every rule the settings break, each once and in the order of their
places. -/
structure Lists (settings : Settings) (report : List SettingsProblem) : Prop where
  complete : ∀ problem, problem ∈ report ↔ settings.Breaks problem
  ordered : report.Pairwise fun problem other => problem.rank < other.rank

theorem Lists.eq {settings : Settings} {report other : List SettingsProblem}
    (hreport : settings.Lists report) (hother : settings.Lists other) : report = other := by
  have hnodup {listed : List SettingsProblem} (hlisted : settings.Lists listed) : listed.Nodup :=
    hlisted.ordered.imp fun {_ _} hlt heq => by simp [heq] at hlt
  have hperm : report.Perm other :=
    (List.perm_ext_iff_of_nodup (hnodup hreport) (hnodup hother)).2 fun problem => by
      rw [hreport.complete, hother.complete]
  refine hperm.eq_of_pairwise ?_ hreport.ordered hother.ordered
  intro problem next _ _ hlt hgt
  omega

theorem Lists.eq_nil_iff {settings : Settings} {report : List SettingsProblem}
    (hreport : settings.Lists report) : report = [] ↔ settings.Admissible := by
  simp only [List.eq_nil_iff_forall_not_mem, hreport.complete, Admissible]

theorem mem_problems_iff {settings : Settings} {problem : SettingsProblem} :
    problem ∈ settings.problems ↔ settings.Breaks problem := by
  simp only [problems, List.mem_append, List.mem_ite_nil_right, List.mem_ite_nil_left,
    List.mem_singleton, Option.isNone_iff_eq_none, List.contains_iff_mem]
  constructor
  · rintro ((((⟨haddress, rfl⟩ | ⟨hseconds, rfl⟩) | ⟨⟨henabled, haddress⟩, rfl⟩) | ⟨hfile, rfl⟩) |
      ⟨hlevel, rfl⟩)
    · exact .bindAddress haddress
    · exact .timeout hseconds
    · exact .metricsAddress henabled haddress
    · exact .routeFile hfile
    · exact .logLevel hlevel
  · intro hbreaks
    cases hbreaks with
    | bindAddress haddress => exact .inl (.inl (.inl (.inl ⟨haddress, rfl⟩)))
    | timeout hseconds => exact .inl (.inl (.inl (.inr ⟨hseconds, rfl⟩)))
    | metricsAddress henabled haddress => exact .inl (.inl (.inr ⟨⟨henabled, haddress⟩, rfl⟩))
    | routeFile hfile => exact .inl (.inr ⟨hfile, rfl⟩)
    | logLevel hlevel => exact .inr ⟨hlevel, rfl⟩

/-- Whatever rules are broken, the problems are some of these five in this order. -/
theorem problems_sublist (settings : Settings) :
    settings.problems.Sublist
      [.badBindAddress settings.bindAddress, .zeroTimeout,
        .badMetricsAddress settings.metricsAddress, .noRouteFile,
        .unknownLogLevel settings.logLevel] := by
  have hone (rule : Prop) [Decidable rule] (problem : SettingsProblem) :
      (if rule then [problem] else []).Sublist [problem] := by
    split
    · exact List.Sublist.refl _
    · exact List.nil_sublist _
  have hlast (rule : Prop) [Decidable rule] (problem : SettingsProblem) :
      (if rule then [] else [problem]).Sublist [problem] := by
    rw [← ite_not]
    exact hone (¬ rule) problem
  exact ((((hone _ _).append (hone _ _)).append (hone _ _)).append (hone _ _)).append (hlast _ _)

theorem lists_problems (settings : Settings) : settings.Lists settings.problems where
  complete _ := mem_problems_iff
  ordered := List.Pairwise.sublist settings.problems_sublist (by simp [SettingsProblem.rank])

theorem problems_eq_nil_iff {settings : Settings} : settings.problems = [] ↔ settings.Admissible :=
  settings.lists_problems.eq_nil_iff

theorem admissible_default : default.Admissible :=
  problems_eq_nil_iff.1 (by decide +kernel)

/-! ## Checks -/

theorem checked_of_admissible {settings : Settings} (hadmissible : settings.Admissible) :
    settings.checked = .ok settings := by
  rw [checked, if_pos (problems_eq_nil_iff.2 hadmissible)]

theorem checked_of_not_admissible {settings : Settings} (hbroken : ¬ settings.Admissible) :
    settings.checked = .error (.badSettings settings.problems) := by
  rw [checked, if_neg (mt problems_eq_nil_iff.1 hbroken)]

theorem checked_eq_ok_iff {settings result : Settings} :
    settings.checked = .ok result ↔ settings = result ∧ settings.Admissible := by
  by_cases hadmissible : settings.Admissible
  · simp [checked_of_admissible hadmissible, hadmissible]
  · simp [checked_of_not_admissible hadmissible, hadmissible]

theorem checked_eq_error_iff {settings : Settings} {report : List SettingsProblem} :
    settings.checked = .error (.badSettings report) ↔ report ≠ [] ∧ settings.Lists report := by
  constructor
  · intro hchecked
    by_cases hadmissible : settings.Admissible
    · rw [checked_of_admissible hadmissible] at hchecked
      cases hchecked
    · rw [checked_of_not_admissible hadmissible] at hchecked
      obtain rfl := LoadError.badSettings.inj (Except.error.inj hchecked)
      exact ⟨mt problems_eq_nil_iff.1 hadmissible, settings.lists_problems⟩
  · rintro ⟨hsome, hreport⟩
    rw [checked_of_not_admissible (mt hreport.eq_nil_iff.2 hsome),
      hreport.eq settings.lists_problems]

/-! ## Before and after the command line -/

/-- The settings on which the command line has its say: those that the file spells, or the defaults
if there is no file. -/
inductive Starts (files : Files) (overrides : Overrides) : Settings → Prop
  | file {path : String} {content : Bytes} {settings : Settings}
      (hpath : overrides.settingsFile = some path) (hread : files path = .ok content)
      (hspelled : parse? content = some settings) : Starts files overrides settings
  | usual (hpath : overrides.settingsFile = none) : Starts files overrides default

/-- Settings that have the given fields, and every other field as it was before. -/
structure Replaced (overrides : Overrides) (before after : Settings) : Prop where
  routeFile : after.routeFile = overrides.routeFile.getD before.routeFile
  bindAddress : after.bindAddress = overrides.bindAddress.getD before.bindAddress
  logLevel : after.logLevel = overrides.logLevel.getD before.logLevel
  requestSeconds : after.requestSeconds = before.requestSeconds
  metricsEnabled : after.metricsEnabled = before.metricsEnabled
  metricsAddress : after.metricsAddress = before.metricsAddress

theorem replaced_iff {overrides : Overrides} {before after : Settings} :
    Replaced overrides before after ↔ before.overridden overrides = after := by
  constructor
  · rintro ⟨hroute, hbind, hlevel, hseconds, henabled, hmetrics⟩
    obtain ⟨address, file, seconds, level, enabled, metrics⟩ := after
    simp only [overridden, mk.injEq]
    exact ⟨hbind.symm, hroute.symm, hseconds.symm, hlevel.symm, henabled.symm, hmetrics.symm⟩
  · rintro rfl
    exact ⟨rfl, rfl, rfl, rfl, rfl, rfl⟩

theorem load_eq (files : Files) (path : String) :
    load files path =
      match files.load path with
      | .error error => .error error
      | .ok content =>
          match parse? content with
          | none => .error .badSettingsFile
          | some settings => settings.checked := by
  rw [load]
  cases files.load path <;> rfl

theorem resolve_of_starts {files : Files} {overrides : Overrides} {before : Settings}
    (hstarts : Starts files overrides before) :
    resolve files overrides =
      match before.checked with
      | .error error => .error error
      | .ok settings => (settings.overridden overrides).checked := by
  cases hstarts with
  | file hpath hread hspelled =>
      simp only [resolve, bind, Except.bind, hpath, load_eq, Files.load_eq_ok_iff.2 hread, hspelled]
      cases before.checked <;> rfl
  | usual hpath =>
      simp only [resolve, bind, Except.bind, hpath, checked_of_admissible admissible_default]

theorem resolve_of_admissible {files : Files} {overrides : Overrides} {before : Settings}
    (hstarts : Starts files overrides before) (hadmissible : before.Admissible) :
    resolve files overrides = (before.overridden overrides).checked := by
  rw [resolve_of_starts hstarts, checked_of_admissible hadmissible]

theorem resolve_of_not_admissible {files : Files} {overrides : Overrides} {before : Settings}
    (hstarts : Starts files overrides before) (hbroken : ¬ before.Admissible) :
    resolve files overrides = .error (.badSettings before.problems) := by
  rw [resolve_of_starts hstarts, checked_of_not_admissible hbroken]

/-- If there are no settings to start with, then the file is the reason, and no rule is. -/
theorem starts_or_error (files : Files) (overrides : Overrides) :
    (∃ before, Starts files overrides before) ∨
      ∃ error, resolve files overrides = .error error ∧ ∀ report, error ≠ .badSettings report := by
  cases hpath : overrides.settingsFile with
  | none => exact .inl ⟨default, .usual hpath⟩
  | some path =>
      have hfailed {error : LoadError} (hload : load files path = .error error) :
          resolve files overrides = .error error := by
        simp only [resolve, hpath, hload]
        rfl
      cases hloaded : files.load path with
      | error error =>
          refine .inr ⟨error, hfailed (by rw [load_eq, hloaded]), fun report => ?_⟩
          exact Files.ne_badSettings_of_load hloaded report
      | ok content =>
          cases hspelled : parse? content with
          | some settings =>
              exact .inl ⟨settings, .file hpath (Files.load_eq_ok_iff.1 hloaded) hspelled⟩
          | none =>
              refine .inr ⟨.badSettingsFile, hfailed ?_, nofun⟩
              simp only [load_eq, hloaded, hspelled]

theorem resolve_eq_ok_iff {files : Files} {overrides : Overrides} {settings : Settings} :
    resolve files overrides = .ok settings ↔
      ∃ before, Starts files overrides before ∧ before.Admissible ∧
        Replaced overrides before settings ∧ settings.Admissible := by
  have hadmitted {before : Settings} (hstarts : Starts files overrides before)
      (hadmissible : before.Admissible) :
      resolve files overrides = .ok settings ↔
        Replaced overrides before settings ∧ settings.Admissible := by
    rw [resolve_of_admissible hstarts hadmissible, checked_eq_ok_iff, replaced_iff]
    exact and_congr_right fun heq => heq ▸ Iff.rfl
  constructor
  · intro hresolve
    obtain ⟨before, hstarts⟩ | ⟨error, herror, -⟩ := starts_or_error files overrides
    · by_cases hadmissible : before.Admissible
      · exact ⟨before, hstarts, hadmissible, (hadmitted hstarts hadmissible).1 hresolve⟩
      · rw [resolve_of_not_admissible hstarts hadmissible] at hresolve
        cases hresolve
    · rw [herror] at hresolve
      cases hresolve
  · rintro ⟨before, hstarts, hadmissible, hsettings⟩
    exact (hadmitted hstarts hadmissible).2 hsettings

theorem resolve_eq_badSettings_iff {files : Files} {overrides : Overrides}
    {report : List SettingsProblem} :
    resolve files overrides = .error (.badSettings report) ↔
      report ≠ [] ∧ ∃ before, Starts files overrides before ∧
        (before.Lists report ∨
          before.Admissible ∧ ∃ after, Replaced overrides before after ∧ after.Lists report) := by
  constructor
  · intro hresolve
    obtain ⟨before, hstarts⟩ | ⟨error, herror, hother⟩ := starts_or_error files overrides
    · by_cases hadmissible : before.Admissible
      · rw [resolve_of_admissible hstarts hadmissible, checked_eq_error_iff] at hresolve
        exact ⟨hresolve.1, before, hstarts,
          .inr ⟨hadmissible, before.overridden overrides, replaced_iff.2 rfl, hresolve.2⟩⟩
      · rw [resolve_of_not_admissible hstarts hadmissible] at hresolve
        obtain rfl := LoadError.badSettings.inj (Except.error.inj hresolve)
        exact ⟨mt problems_eq_nil_iff.1 hadmissible, before, hstarts, .inl before.lists_problems⟩
    · rw [herror] at hresolve
      exact absurd (Except.error.inj hresolve) (hother report)
  · rintro ⟨hsome, before, hstarts, hreport | ⟨hadmissible, after, hafter, hreport⟩⟩
    · rw [resolve_of_not_admissible hstarts (mt hreport.eq_nil_iff.2 hsome),
        hreport.eq before.lists_problems]
    · rw [resolve_of_admissible hstarts hadmissible, replaced_iff.1 hafter, checked_eq_error_iff]
      exact ⟨hsome, hreport⟩

/-! ## The settings of a server -/

theorem Admissible.exists_bindAddress {settings : Settings} (hadmissible : settings.Admissible) :
    ∃ own, Address.parse? settings.bindAddress = some own :=
  Option.ne_none_iff_exists'.1 fun hnone => hadmissible _ (.bindAddress hnone)

theorem Admissible.exists_metricsAddress {settings : Settings} (hadmissible : settings.Admissible)
    (henabled : settings.metricsEnabled = true) :
    ∃ metrics, Address.parse? settings.metricsAddress = some metrics :=
  Option.ne_none_iff_exists'.1 fun hnone => hadmissible _ (.metricsAddress henabled hnone)

theorem resolve_of_serving {world : Program.World} {overrides : Overrides} {site : Site}
    {settings : Settings} {filter : Log.Filter} {log : List String}
    (hstart : Program.start world overrides = .serving site settings filter log) :
    resolve world.files overrides = .ok settings := by
  rw [Program.start] at hstart
  cases hresolve : resolve world.files overrides with
  | error error =>
      rw [hresolve] at hstart
      cases hstart
  | ok resolved =>
      rw [hresolve] at hstart
      dsimp only at hstart
      -- Of the five ends of a run whose settings hold only one serves.
      split at hstart
      · cases hstart
      · cases hstart
      · split at hstart
        · cases hstart
        · split at hstart
          · cases hstart
          · cases hstart
            rfl

/-- Settings hold exactly if the file, where there is one, can be read and spells settings, these
keep every rule before the command line has its say, and so does what comes out, which has the given
fields and is otherwise as before.  If rules are the reason that none hold, then all that the first
of the two break are reported, each once and in order.  Settings that hold have addresses to listen
on, for the metrics as well if there are to be any, and allow a request some time; a server that
serves has settings that hold. -/
theorem resolve_checks_twice (files : Files) (overrides : Overrides) :
    (∀ settings, resolve files overrides = .ok settings ↔
      ∃ before, Starts files overrides before ∧ before.Admissible ∧
        Replaced overrides before settings ∧ settings.Admissible) ∧
    (∀ report, resolve files overrides = .error (.badSettings report) ↔
      report ≠ [] ∧ ∃ before, Starts files overrides before ∧
        (before.Lists report ∨
          before.Admissible ∧ ∃ after, Replaced overrides before after ∧ after.Lists report)) ∧
    (∀ settings, resolve files overrides = .ok settings →
      settings.requestSeconds ≠ 0 ∧
        (∃ own, Address.parse? settings.bindAddress = some own) ∧
        (settings.metricsEnabled = true →
          ∃ metrics, Address.parse? settings.metricsAddress = some metrics)) ∧
    ∀ world site settings filter log, world.files = files →
      Program.start world overrides = .serving site settings filter log →
        resolve files overrides = .ok settings := by
  refine ⟨fun settings => resolve_eq_ok_iff, fun report => resolve_eq_badSettings_iff, ?_, ?_⟩
  · intro settings hresolve
    obtain ⟨-, -, -, -, hadmissible⟩ := resolve_eq_ok_iff.1 hresolve
    exact ⟨fun hseconds => hadmissible _ (.timeout hseconds), hadmissible.exists_bindAddress,
      hadmissible.exists_metricsAddress⟩
  · rintro world site settings filter log rfl hstart
    exact resolve_of_serving hstart

/-- A file whose address to listen on is none. -/
def strayFile : Bytes := Text.bytes "[listener]\nbind_address = \"nowhere\"\n"

/-- A file that wants metrics. -/
def meteredFile : Bytes :=
  Text.bytes "[observability]\nmetrics_enabled = true\nmetrics_address = \"127.0.0.1:9\"\n"

/-- Two files that can be read. -/
def twoFiles (path : String) : Except ReadFailure Bytes :=
  if path = "stray.toml" then .ok strayFile
  else if path = "metered.toml" then .ok meteredFile
  else .error .missing

theorem resolve_twoFiles :
    resolve twoFiles ⟨some "stray.toml", none, some "127.0.0.1:80", none⟩ =
      .error (.badSettings [.badBindAddress "nowhere"]) ∧
    resolve twoFiles ⟨some "metered.toml", some "", none, some "LOUD"⟩ =
      .error (.badSettings [.noRouteFile, .unknownLogLevel "LOUD"]) ∧
    ∃ settings,
      resolve twoFiles ⟨some "metered.toml", none, some "127.0.0.1:80", some "WARN"⟩ =
          .ok settings ∧
        settings.requestSeconds ≠ 0 ∧ settings.metricsAddress = "127.0.0.1:9" ∧
          ∃ metrics, Address.parse? settings.metricsAddress = some metrics := by
  have hlists {settings : Settings} {report : List SettingsProblem}
      (hreport : settings.problems = report) : settings.Lists report :=
    hreport ▸ settings.lists_problems
  let metered : Settings :=
    { default with metricsEnabled := true, metricsAddress := "127.0.0.1:9" }
  have hmetered : parse? meteredFile = some metered := by decide +kernel
  have hadmissible : metered.Admissible := problems_eq_nil_iff.1 (by decide +kernel)
  refine ⟨?_, ?_, ?_⟩
  · refine ((resolve_checks_twice _ _).2.1 _).2 ⟨by simp, { default with bindAddress := "nowhere" },
      .file rfl rfl (by decide +kernel), .inl (hlists (by decide +kernel))⟩
  · refine ((resolve_checks_twice _ _).2.1 _).2 ⟨by simp, metered, .file rfl rfl hmetered,
      .inr ⟨hadmissible, _, replaced_iff.2 rfl, hlists (by decide +kernel)⟩⟩
  · have hresolve := ((resolve_checks_twice twoFiles
      ⟨some "metered.toml", none, some "127.0.0.1:80", some "WARN"⟩).1 _).2
        ⟨metered, .file rfl rfl hmetered, hadmissible, replaced_iff.2 rfl,
          problems_eq_nil_iff.1 (by decide +kernel)⟩
    obtain ⟨hseconds, -, hmetrics⟩ := (resolve_checks_twice _ _).2.2.1 _ hresolve
    exact ⟨_, hresolve, hseconds, rfl, hmetrics rfl⟩

end Settings

end MockHttp
