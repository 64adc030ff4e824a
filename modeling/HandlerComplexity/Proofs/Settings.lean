import HandlerComplexity.Command.Run
import HandlerComplexity.Proofs.Overlay
import HandlerComplexity.Proofs.Scan

/-!
# Configurations that cannot be read

A run makes its configuration out of a document and of what the command line overrides in the section `engine`, and
reads six settings of it. A document that is no mapping and a number of workers that is none are reported, and the run
ends with its code for a wrong configuration. Everything else that a document can have in the wrong place is not
noticed before the setting is read, and then it is not reported but escapes. Which documents these are is said here of
what the document itself has under the names of the sections and settings.

* `Document.sectionIn`, `Document.settingIn`: what a document has, whatever it is laid over.
* `Config.setting?_overlay_default`: what a setting is with a document laid over the default configuration.
* `Command.Arguments.fault?`: why a run cannot read a setting.
* `Command.settings_escape_iff_misshapen`: which failures escape, which are reported, and what becomes of the run.
-/

namespace HandlerComplexity

namespace Document

def isMap : Document → Bool
  | map _ => true
  | _ => false

/-- The entries of a mapping; nothing else has any. -/
def entries : Document → Entries
  | map entries => entries
  | _ => []

/-- What a document has under a name. -/
def sectionIn (d : Document) (name : String) : Option Document := get? (.text name) d.entries

/-- What a document has under a name in one of its sections. -/
def settingIn (d : Document) (name setting : String) : Option Document :=
  (d.sectionIn name).bind (·.sectionIn setting)

/-- Whether a document has something else than a mapping for a section. -/
def hasBadSection (d : Document) (name : String) : Bool := (d.sectionIn name).any (!·.isMap)

theorem settingIn_eq_none {d : Document} {name : String} (h : d.hasBadSection name = true) (setting : String) :
    d.settingIn name setting = none := by
  rw [hasBadSection] at h
  rw [settingIn]
  cases hsection : d.sectionIn name with
  | none => rfl
  | some v =>
    rw [hsection] at h
    cases v with
    | map es => cases h
    | _ => rfl

/-- Whether a document is a positive integer; a truth value counts as one. -/
def isWorkerCount : Document → Bool
  | scalar s => s.toInt?.any (1 ≤ ·)
  | _ => false

theorem mem_of_get? {s : Scalar} {es : Entries} {d : Document} (h : get? s es = some d) : ∃ k, (k, d) ∈ es := by
  induction es with
  | nil => cases h
  | cons e es ih =>
    obtain ⟨k, v⟩ := e
    rw [get?] at h
    split_ifs at h
    · obtain rfl := Option.some.inj h
      exact ⟨k, List.mem_cons_self⟩
    · obtain ⟨l, hmem⟩ := ih h
      exact ⟨l, List.mem_cons_of_mem _ hmem⟩

end Document

/-! ## Settings of a document laid over the default -/

namespace Config

open Document

variable {layer : Entries} {name : String} {defaults : Entries}

/-- No default value of a setting is a mapping. -/
theorem isMap_defaults (hdefault : get? (.text name) defaultEntries = some (.map defaults)) :
    ∀ e ∈ defaults, e.2.isMap = false := by
  have hall : defaultEntries.all (fun e => e.2.entries.all (!·.2.isMap)) = true := by decide
  obtain ⟨k, hmem⟩ := mem_of_get? hdefault
  have hsection := List.all_eq_true.mp hall _ hmem
  exact fun e he => Bool.not_eq_true' _ ▸ List.all_eq_true.mp hsection e he

/-- A section of a document is laid over the default one. -/
theorem sectionOf_overlay_default (once : KeysOnce layer)
    (hdefault : get? (.text name) defaultEntries = some (.map defaults)) :
    (default.overlay layer).sectionOf name =
      match get? (.text name) layer with
      | none => .map defaults
      | some v => overlayValue (some (.map defaults)) v := by
  have hlookup := get?_overlay once (.text name) defaultEntries
  rw [hdefault] at hlookup
  change (get? (.text name) (Document.overlay defaultEntries layer)).getD (.map []) = _
  rw [hlookup]
  cases get? (.text name) layer with
  | none => rfl
  | some v => rfl

/-- **A setting of a document laid over the default.** It cannot be read if the document has no mapping for its
section. Otherwise it is what the document has, and the default if it has nothing. The default values are no mappings,
so that nothing is left of one that the document replaces. -/
theorem setting?_overlay_default (h : EachKeyOnce (.map layer))
    (hdefault : get? (.text name) defaultEntries = some (.map defaults)) (setting : String) :
    (default.overlay layer).setting? name setting =
      if hasBadSection (.map layer) name then .error .badSection
      else .ok ((settingIn (.map layer) name setting).or (get? (.text setting) defaults)) := by
  obtain - | - | ⟨once, hall⟩ := h
  have hsection := sectionOf_overlay_default once hdefault
  have hin : sectionIn (.map layer) name = get? (.text name) layer := rfl
  rw [hasBadSection, settingIn, setting?, hsection, hin]
  cases hget : get? (.text name) layer with
  | none => rfl
  | some v =>
    cases v with
    | map es =>
      obtain ⟨k, hmem⟩ := mem_of_get? hget
      obtain - | - | ⟨once', -⟩ := hall _ hmem
      have hflat : ∀ es, get? (.text setting) defaults ≠ some (.map es) := by
        intro es hes
        obtain ⟨l, hmem⟩ := mem_of_get? hes
        cases isMap_defaults hdefault _ hmem
      simp only [overlayValue, key, Option.any_some, isMap, Option.bind_some, sectionIn, Document.entries,
        get?_overlay once' (.text setting)]
      cases get? (.text setting) es with
      | none => simp
      | some v => simp [overlayValue_of_base hflat]
    | _ => simp [overlayValue, isMap]

theorem eq_badSection_of_setting? {c : Config} {name setting : String} {e : ConfigError}
    (h : c.setting? name setting = .error e) : e = .badSection := by
  rw [setting?] at h
  split at h
  · cases h
  · exact (Except.error.inj h).symm

theorem get?_sectionOf (c : Config) (name setting : String) :
    get? (.text setting) (c.sectionOf name).entries =
      match c.setting? name setting with
      | .ok v => v
      | .error _ => none := by
  rw [setting?]
  cases c.sectionOf name <;> rfl

/-- The number of workers is what its setting holds, if that is a number of workers. -/
theorem maxWorkers_of_setting {c : Config} {value : Option Document}
    (h : c.setting? "engine" "max_workers" = .ok value) :
    (∃ s, (value.getD (.ofInt 1)).isWorkerCount = true ∧ c.maxWorkers = .ok s) ∨
      (value.getD (.ofInt 1)).isWorkerCount = false ∧ c.maxWorkers = .error (badWorkers (value.getD (.ofInt 1))) := by
  simp only [maxWorkers, h]
  cases hvalue : value.getD (.ofInt 1) with
  | scalar s =>
    cases hs : s.toInt? with
    | none => exact .inr ⟨by simp [isWorkerCount, hs], by simp [hs]⟩
    | some n =>
      by_cases hn : 1 ≤ n
      · exact .inl ⟨s, by simp [isWorkerCount, hs, hn], by simp [hs, hn]⟩
      · exact .inr ⟨by simp [isWorkerCount, hs, hn], by simp [hs, hn]⟩
  | _ => exact .inr ⟨rfl, rfl⟩

end Config

namespace Command

open Document

/-! ## What the command line overrides -/

/-- A configuration with the overrides of the command line. -/
def Arguments.override (a : Arguments) (c : Config) : Config :=
  match a.engineEntries with
  | [] => c
  | entries => c.overlay [(Config.key "engine", .map entries)]

/-- Whether the command line overrides something. -/
def Arguments.setsEngine (a : Arguments) : Bool := a.workers.isSome || a.failFast

theorem engineEntries_eq_nil_iff {a : Arguments} : a.engineEntries = [] ↔ a.setsEngine = false := by
  cases hw : a.workers <;> cases hf : a.failFast <;> simp [Arguments.engineEntries, Arguments.setsEngine, hw, hf]

theorem override_of_not_setsEngine {a : Arguments} (h : a.setsEngine = false) (c : Config) : a.override c = c := by
  rw [Arguments.override, engineEntries_eq_nil_iff.mpr h]

theorem override_of_setsEngine {a : Arguments} (h : a.setsEngine = true) (c : Config) :
    a.override c = c.overlay [(Config.key "engine", .map a.engineEntries)] := by
  have hne : a.engineEntries ≠ [] := fun hnil => by simp [engineEntries_eq_nil_iff.mp hnil] at h
  rw [Arguments.override]
  split
  · contradiction
  · rfl

theorem sectionOf_override {a : Arguments} {name : String} (h : name ≠ "engine") (c : Config) :
    (a.override c).sectionOf name = c.sectionOf name := by
  cases ha : a.setsEngine with
  | false => rw [override_of_not_setsEngine ha]
  | true =>
    rw [override_of_setsEngine ha]
    have hne : Scalar.text "engine" ≠ .text name := fun heq => h (Scalar.text.inj heq).symm
    simp only [Config.sectionOf, Config.overlay, overlay, Config.key, get?_put, Scalar.same_text_iff]
    rw [if_neg hne]

theorem setting?_override {a : Arguments} {name : String} (h : name ≠ "engine") (c : Config) (setting : String) :
    (a.override c).setting? name setting = c.setting? name setting := by
  rw [Config.setting?, Config.setting?, sectionOf_override h]

theorem keysOnce_engineEntries (a : Arguments) : KeysOnce a.engineEntries := by
  cases hw : a.workers <;> cases hf : a.failFast <;>
    simp [Arguments.engineEntries, hw, hf, KeysOnce, Config.key, Scalar.same]

theorem get?_max_workers (a : Arguments) : get? (.text "max_workers") a.engineEntries = a.workers.map .ofInt := by
  cases hw : a.workers <;> cases hf : a.failFast <;>
    simp [Arguments.engineEntries, hw, hf, get?_text_cons, Config.key, get?]

theorem isMap_engineEntries (a : Arguments) : ∀ e ∈ a.engineEntries, e.2.isMap = false := by
  cases hw : a.workers <;> cases hf : a.failFast <;>
    simp [Arguments.engineEntries, hw, hf, isMap, ofInt, ofBool]

/-- An override is there whatever the section held; what it does not name is left as it was, or is gone with a section
that was no mapping. -/
theorem setting?_override_engine {a : Arguments} (h : a.setsEngine = true) (c : Config) (setting : String) :
    (a.override c).setting? "engine" setting =
      .ok ((get? (.text setting) a.engineEntries).or (get? (.text setting) (c.sectionOf "engine").entries)) := by
  have hsection : (a.override c).sectionOf "engine" =
      overlayValue (get? (.text "engine") c.entries) (.map a.engineEntries) := by
    rw [override_of_setsEngine h]
    simp only [Config.sectionOf, Config.overlay, overlay, Config.key, get?_put, Scalar.same_text_iff, if_true, Option.getD_some]
  have hflat : ∀ {v : Document} {base : Option Document}, get? (.text setting) a.engineEntries = some v →
      overlayValue base v = v := by
    intro v base hv
    obtain ⟨k, hmem⟩ := mem_of_get? hv
    refine overlayValue_of_not_map fun es hes => ?_
    cases hes ▸ isMap_engineEntries a _ hmem
  rw [Config.setting?, hsection, Config.sectionOf, Config.key, Config.key]
  cases hbase : get? (.text "engine") c.entries with
  | none => simp [overlayValue, Document.entries, get?]
  | some v =>
    cases v with
    | map below =>
      simp only [overlayValue, Option.getD_some, Document.entries, get?_overlay (keysOnce_engineEntries a) (.text setting)]
      cases hv : get? (.text setting) a.engineEntries with
      | none => rfl
      | some v => simp [hflat hv]
    | _ => simp [overlayValue, Document.entries, get?]

/-! ## Settings that a run reads -/

/-- What a run reads of its configuration. -/
inductive Setting
  | workers
  | failFast
  | logLevel
  | languages
  | policy
  | format
deriving DecidableEq, Repr

/-- Why a setting cannot be read. -/
inductive SettingError
  | config (e : ConfigError)
  | policy (e : PolicyError)
  | format (c : Crash)

/-- Only some errors of the configuration are reported. -/
def SettingError.isReported : SettingError → Bool
  | config e => e.isReported
  | policy _ | format _ => false

def SettingError.message : SettingError → String
  | config e => e.message
  | policy e => (Failure.policy e).message
  | format c => c.message

/-- The reason of a failure. -/
def reason? {ε α : Type} (wrap : ε → SettingError) : Except ε α → Option SettingError
  | .error e => some (wrap e)
  | .ok _ => none

/-- Why a setting of a configuration cannot be read, if it cannot. -/
def Arguments.faultIn? (a : Arguments) (c : Config) : Setting → Option SettingError
  | .workers => reason? .config c.maxWorkers
  | .failFast => reason? .config c.failFast
  | .logLevel => reason? .config c.logLevel
  | .languages => reason? .config c.languages
  | .policy => reason? .policy (Policy.ofSection c.eligibility)
  | .format => reason? .format (formatOf a c)

/-- Why a setting cannot be read with a document for the configuration, if it cannot. -/
def Arguments.fault? (a : Arguments) (d : Document) (s : Setting) : Option SettingError :=
  match Config.ofDocument d with
  | .error e => some (.config e)
  | .ok c => a.faultIn? (a.override c) s

/-- A setting fails and the failure is reported. -/
def Arguments.Reports (a : Arguments) (d : Document) (s : Setting) : Prop :=
  ∃ e, a.fault? d s = some e ∧ e.isReported = true

/-- A setting fails and the failure is not reported. -/
def Arguments.Escapes (a : Arguments) (d : Document) (s : Setting) : Prop :=
  ∃ e, a.fault? d s = some e ∧ e.isReported = false

/-! ## Documents in the wrong shape -/

/-- The default settings of the engine. -/
def engineDefaults : Entries := (Config.default.sectionOf "engine").entries

theorem get?_engineDefaults : get? (.text "engine") Config.defaultEntries = some (.map engineDefaults) := rfl

/-- Whether the engine section is no mapping and nothing on the command line takes its place. -/
def Arguments.keepsBadEngine (a : Arguments) (d : Document) : Bool :=
  !a.setsEngine && d.hasBadSection "engine"

/-- The number of workers that is asked for: on the command line, or else in the document. -/
def Arguments.workersIn (a : Arguments) (d : Document) : Document :=
  ((a.workers.map .ofInt).or (d.settingIn "engine" "max_workers")).getD (.ofInt 1)

/-- Whether a number of workers is asked for that is none but can be shown. -/
def Arguments.asksBadCount (a : Arguments) (d : Document) : Bool :=
  !a.keepsBadEngine d && !(a.workersIn d).isWorkerCount && (a.workersIn d).canBeShown

/-- Whether a document is a collection whose members can all be elements of a set. -/
def canBeEnabled (d : Document) : Bool := (Policy.members? d).any (·.all canBeElement)

/-- Whether a document is no collection and not one of the values that stand for an empty one. -/
def isNoPatterns (d : Document) : Bool := d.holds && (Policy.members? d).isNone

/-- Whether what a document has for a setting, or for its section, is of the wrong kind. -/
def Arguments.isMisshapen (a : Arguments) (d : Document) : Setting → Bool
  | .workers => a.keepsBadEngine d || !(a.workersIn d).isWorkerCount && !(a.workersIn d).canBeShown
  | .failFast => a.keepsBadEngine d
  | .logLevel => d.hasBadSection "logging" || (d.settingIn "logging" "level").any (!·.canBeShown)
  | .languages => d.hasBadSection "languages" || (d.settingIn "languages" "enabled").any (!canBeEnabled ·)
  | .policy => d.hasBadSection "eligibility" || (d.settingIn "eligibility" "exclude_patterns").any isNoPatterns
  | .format => a.format.isNone &&
      (d.hasBadSection "reporting" || (d.settingIn "reporting" "format").any (!·.canBeElement))

/-! ## What each reading depends on -/

/-- A reading looks at one setting: it fails without a report if the section is no mapping, or if the value, which is
the fallback if there is none, is bad; otherwise it succeeds. -/
def DependsOn (read : Config → Option SettingError) (name setting : String) (fallback : Document)
    (bad : Document → Bool) : Prop :=
  ∀ c, (read c).map SettingError.isReported =
    match c.setting? name setting with
    | .error _ => some false
    | .ok v => bif bad (v.getD fallback) then some false else none

theorem dependsOn_logLevel (a : Arguments) :
    DependsOn (a.faultIn? · .logLevel) "logging" "level" (.ofText "WARNING") (!·.canBeShown) := by
  intro c
  simp only [Arguments.faultIn?, Config.logLevel]
  cases hset : c.setting? "logging" "level" with
  | error e =>
    obtain rfl := Config.eq_badSection_of_setting? hset
    rfl
  | ok v =>
    cases hv : (v.getD (.ofText "WARNING")).canBeShown <;>
      simp [hv, reason?, SettingError.isReported, ConfigError.isReported]

theorem dependsOn_languages (a : Arguments) :
    DependsOn (a.faultIn? · .languages) "languages" "enabled" (.list []) (!canBeEnabled ·) := by
  intro c
  simp only [Arguments.faultIn?, Config.languages]
  cases hset : c.setting? "languages" "enabled" with
  | error e =>
    obtain rfl := Config.eq_badSection_of_setting? hset
    rfl
  | ok v =>
    simp only [canBeEnabled]
    cases Policy.members? (v.getD (.list [])) with
    | none => rfl
    | some ds =>
      cases hds : ds.all canBeElement <;>
        simp [hds, Config.scalarElements?, reason?, SettingError.isReported, ConfigError.isReported]

/-- What becomes of a policy depends on its patterns alone. -/
theorem dependsOn_policy (a : Arguments) :
    DependsOn (a.faultIn? · .policy) "eligibility" "exclude_patterns" (.list []) isNoPatterns := by
  intro c
  simp only [Arguments.faultIn?, Config.eligibility, Config.setting?, Config.key]
  cases c.sectionOf "eligibility" with
  | map entries =>
    simp only [Policy.ofSection, isNoPatterns]
    by_cases hholds : ((get? (.text "exclude_patterns") entries).getD (.list [])).holds = true
    · simp only [hholds, if_true, Bool.true_and]
      cases Policy.members? ((get? (.text "exclude_patterns") entries).getD (.list [])) <;> rfl
    · simp only [hholds, Bool.false_and]
      rfl
  | _ => rfl

/-- What can be looked up names a format or none. -/
theorem dependsOn_format {a : Arguments} (ha : a.format = none) :
    DependsOn (a.faultIn? · .format) "reporting" "format" (.ofText "text") (!·.canBeElement) := by
  intro c
  simp only [Arguments.faultIn?, formatOf, ha]
  cases hset : c.setting? "reporting" "format" with
  | error e => rfl
  | ok v =>
    rcases v with _ | ⟨s | _ | _ | _ | ⟨first, second⟩⟩
    case some.scalar => cases s <;> rfl
    case some.pair => cases hpair : (pair first second).canBeElement <;> simp [hpair, reason?, SettingError.isReported]
    all_goals rfl

theorem dependsOn_failFast (a : Arguments) :
    DependsOn (a.faultIn? · .failFast) "engine" "fail_fast" (.ofBool false) fun _ => false := by
  intro c
  simp only [Arguments.faultIn?, Config.failFast]
  cases hset : c.setting? "engine" "fail_fast" with
  | error e =>
    obtain rfl := Config.eq_badSection_of_setting? hset
    rfl
  | ok v => rfl

section Reading

variable (a : Arguments) {layer : Entries} (h : EachKeyOnce (.map layer))

include h

/-- A reading that depends on a setting outside of the engine section fails if the document has no mapping for the
section or a bad value for the setting. The default value must be a good one. -/
theorem DependsOn.of_document {read : Config → Option SettingError} {name setting : String} {fallback : Document}
    {bad : Document → Bool} (hread : DependsOn read name setting fallback bad) (hname : name ≠ "engine")
    {defaults : Entries} (hdefault : get? (.text name) Config.defaultEntries = some (.map defaults))
    (hgood : bad ((get? (.text setting) defaults).getD fallback) = false) :
    (read (a.override (Config.default.overlay layer))).map SettingError.isReported =
      bif hasBadSection (.map layer) name || (settingIn (.map layer) name setting).any bad then some false
      else none := by
  rw [hread, setting?_override hname, Config.setting?_overlay_default h hdefault]
  cases hasBadSection (.map layer) name with
  | true => rfl
  | false =>
    cases settingIn (.map layer) name setting with
    | none => simp [hgood]
    | some v => simp

/-- A setting of the engine section is what the command line has, or else the document, or else the default. -/
theorem setting?_engine_of_document (setting : String) {value : Document}
    (hdefault : get? (.text setting) engineDefaults = some value) :
    (a.keepsBadEngine (.map layer) = true ∧
        (a.override (Config.default.overlay layer)).setting? "engine" setting = .error .badSection) ∨
      a.keepsBadEngine (.map layer) = false ∧
        ∃ v, (a.override (Config.default.overlay layer)).setting? "engine" setting = .ok v ∧
          v.getD value =
            ((get? (.text setting) a.engineEntries).or (settingIn (.map layer) "engine" setting)).getD value := by
  have hset := Config.setting?_overlay_default h get?_engineDefaults setting
  rw [hdefault] at hset
  rw [Arguments.keepsBadEngine]
  cases ha : a.setsEngine with
  | false =>
    rw [override_of_not_setsEngine ha, hset, engineEntries_eq_nil_iff.mpr ha]
    cases hbad : hasBadSection (.map layer) "engine" with
    | true => exact .inl ⟨rfl, rfl⟩
    | false =>
      refine .inr ⟨rfl, _, rfl, ?_⟩
      cases settingIn (.map layer) "engine" setting <;> rfl
  | true =>
    refine .inr ⟨rfl, _, setting?_override_engine ha _ setting, ?_⟩
    rw [Config.get?_sectionOf, hset]
    cases get? (.text setting) a.engineEntries with
    | some v => rfl
    | none =>
      cases hbad : hasBadSection (.map layer) "engine" with
      | true => rw [settingIn_eq_none hbad]; rfl
      | false => cases settingIn (.map layer) "engine" setting <;> rfl

theorem reading_failFast :
    (a.faultIn? (a.override (Config.default.overlay layer)) .failFast).map SettingError.isReported =
      bif a.keepsBadEngine (.map layer) then some false else none := by
  rw [dependsOn_failFast a]
  obtain ⟨hbad, hset⟩ | ⟨hbad, v, hset, -⟩ := setting?_engine_of_document a h "fail_fast" rfl
  · rw [hbad, hset, cond_true]
  · rw [hbad, hset]

theorem reading_workers :
    (a.faultIn? (a.override (Config.default.overlay layer)) .workers).map SettingError.isReported =
      bif a.isMisshapen (.map layer) .workers then some false
      else bif a.asksBadCount (.map layer) then some true else none := by
  rw [Arguments.isMisshapen, Arguments.asksBadCount, Arguments.faultIn?]
  obtain ⟨hbad, hset⟩ | ⟨hbad, v, hset, hv⟩ := setting?_engine_of_document a h "max_workers" rfl
  · simp [Config.maxWorkers, hbad, hset, reason?, SettingError.isReported, ConfigError.isReported]
  · rw [get?_max_workers] at hv
    rw [hbad, Arguments.workersIn, ← hv]
    obtain ⟨s, hcount, hmax⟩ | ⟨hcount, hmax⟩ := Config.maxWorkers_of_setting hset
    · simp [hcount, hmax, reason?]
    · rw [hcount, hmax, Config.badWorkers]
      cases (v.getD (.ofInt 1)).canBeShown <;> rfl

end Reading

/-- **What becomes of each reading.** It escapes where the document is misshapen, it is reported where the document is
no mapping or asks for a bad number of workers, and it succeeds in all other cases. -/
theorem isReported_fault? (a : Arguments) {d : Document} (h : d.EachKeyOnce) (s : Setting) :
    (a.fault? d s).map SettingError.isReported =
      bif d.isMap then
        bif a.isMisshapen d s then some false
        else bif s == .workers && a.asksBadCount d then some true else none
      else some true := by
  cases d with
  | map layer =>
    change (a.faultIn? (a.override (Config.default.overlay layer)) s).map SettingError.isReported = _
    cases s with
    | workers => exact reading_workers a h
    | failFast => exact reading_failFast a h
    | logLevel => exact (dependsOn_logLevel a).of_document a h (by decide) rfl rfl
    | languages => exact (dependsOn_languages a).of_document a h (by decide) rfl rfl
    | policy => exact (dependsOn_policy a).of_document a h (by decide) rfl rfl
    | format =>
      cases hformat : a.format with
      | some format => simp only [Arguments.faultIn?, formatOf, hformat, reason?, Arguments.isMisshapen]; rfl
      | none =>
        rw [Arguments.isMisshapen, hformat]
        exact (dependsOn_format hformat).of_document a h (by decide) rfl rfl
  | _ => rfl

theorem escapes_iff {a : Arguments} {d : Document} (h : d.EachKeyOnce) (s : Setting) :
    a.Escapes d s ↔ d.isMap = true ∧ a.isMisshapen d s = true := by
  rw [Arguments.Escapes, ← Option.map_eq_some_iff, isReported_fault? a h]
  cases d.isMap <;> cases a.isMisshapen d s <;> cases (s == .workers && a.asksBadCount d) <;> simp

/-- A number of workers that is none is reported if it can be shown, and escapes if not. -/
theorem isMisshapen_of_asksBadCount {a : Arguments} {d : Document} (h : a.asksBadCount d = true) :
    a.isMisshapen d .workers = false := by
  simp only [Arguments.asksBadCount, Bool.and_eq_true, Bool.not_eq_true'] at h
  simp [Arguments.isMisshapen, h]

theorem reports_iff {a : Arguments} {d : Document} (h : d.EachKeyOnce) (s : Setting) :
    a.Reports d s ↔ d.isMap = false ∨ s = .workers ∧ a.asksBadCount d = true := by
  have hcount : (s == .workers && a.asksBadCount d) = true ↔ s = .workers ∧ a.asksBadCount d = true := by simp
  rw [Arguments.Reports, ← Option.map_eq_some_iff, isReported_fault? a h, ← hcount]
  cases hmap : d.isMap with
  | false => simp
  | true =>
    cases hasks : (s == .workers && a.asksBadCount d) with
    | false => cases a.isMisshapen d s <;> simp
    | true =>
      obtain ⟨rfl, hbad⟩ := hcount.mp hasks
      simp [isMisshapen_of_asksBadCount hbad]

/-! ## Runs -/

end Command

/-- A workspace has a file with a document for a configuration. -/
def Workspace.HoldsConfig (w : Workspace) (path : String) (d : Document) : Prop :=
  path ≠ "" ∧ ∃ bytes cs, w.entry? (Path.ofString path) = some (.file bytes) ∧ Text.Utf8.decode? bytes = some cs ∧
    Config.readDocument path (Config.unifyLineEnds cs) = .ok d

theorem Workspace.HoldsConfig.eachKeyOnce {w : Workspace} {path : String} {d : Document} (h : w.HoldsConfig path d) :
    d.EachKeyOnce := by
  obtain ⟨_, _, _, _, _, hread⟩ := h
  exact Config.eachKeyOnce_of_readDocument hread

theorem Config.load_of_holdsConfig {w : Workspace} {path : String} {d : Document} (h : w.HoldsConfig path d) :
    load w (some path) = (ofDocument d).mapError .config := by
  obtain ⟨hpath, bytes, cs, hentry, hdecode, hread⟩ := h
  have hknown : w.refusal? (Path.ofString path) = none := by
    rw [Workspace.refusal?]
    rw [Workspace.entry?] at hentry
    cases hlocate : w.locate (Path.ofString path) with
    | ok spot => rfl
    | error absence => simp [hlocate] at hentry
  have hsome : (some path).filter (· ≠ "") = some path := by simp [Option.filter, hpath]
  rw [load, hsome]
  simp only [hknown, hentry, hdecode, hread]
  rfl

namespace Command

variable {w : Workspace} {path : String} {d : Document} {a : Arguments}

/-- The configuration of a run fails with the number of workers, or else it is that of the document with the overrides
of the command line. -/
theorem configure_cases (h : w.HoldsConfig path d) (ha : a.config = some path) :
    (∃ e, a.fault? d .workers = some (.config e) ∧ a.configure w = .error (.config e)) ∨
      ∃ c, a.fault? d .workers = none ∧ Config.ofDocument d = .ok c ∧ a.configure w = .ok (a.override c) := by
  have hload := Config.load_of_holdsConfig h
  rw [Arguments.configure, ha, hload, Arguments.fault?]
  cases Config.ofDocument d with
  | error e => exact .inl ⟨e, rfl, rfl⟩
  | ok c =>
    change (∃ e, reason? .config (a.override c).maxWorkers = _ ∧
        ((a.override c).maxWorkers.mapError LoadError.config >>= fun _ => pure (a.override c)) = _) ∨ _
    cases hmax : (a.override c).maxWorkers with
    | error e => exact .inl ⟨e, rfl, rfl⟩
    | ok s =>
      refine .inr ⟨c, ?_, rfl, ?_⟩
      · change reason? .config (a.override c).maxWorkers = none
        rw [hmax]
        rfl
      · change ((a.override c).maxWorkers.mapError LoadError.config >>= fun _ => pure (a.override c)) = _
        rw [hmax]
        rfl

/-- What is reported is reported of the number of workers, because that is read first. -/
theorem fault?_workers_of_reported (h : d.EachKeyOnce) {s : Setting} {e : SettingError} (hs : a.fault? d s = some e)
    (he : e.isReported = true) : a.fault? d .workers = some e := by
  rcases (reports_iff h s).mp ⟨e, hs, he⟩ with hmap | ⟨rfl, -⟩
  · cases d with
    | map es => cases hmap
    | _ => exact hs
  · exact hs

theorem exitCode_of_deliver {log : Log} {r : Report} {text : String} {f : Finished}
    (h : deliver a w log r text = .finished f) : f.exitCode ≠ 2 := by
  have hcode : (if r.ok then 0 else 1) ≠ 2 := by split <;> decide
  simp only [deliver] at h
  split at h
  · cases h
    exact hcode
  · split at h
    · cases h
    · cases h
      exact hcode

/-- Scanning and reporting end a run with other codes, and a report is there only if all that a scan and a report need
could be read. -/
theorem of_measure_eq_finished {schedule : Schedule} {g : Grammars} {c : Config} {threshold : Nat} {f : Finished}
    (h : measure schedule w g a c threshold = .finished f) :
    f.exitCode ≠ 2 ∧ (f.complaint = none → ∃ settings format,
      ScanSettings.ofConfig w (.ofString a.path) c = .ok settings ∧ formatOf a c = .ok format) := by
  simp only [measure] at h
  split at h
  · split at h
    · cases h
      exact ⟨(by decide : 1 ≠ 2), nofun⟩
    · cases h
  · rename_i r hscan
    split at h
    · cases h
    · rename_i format hformat
      split at h
      · cases h
      · refine ⟨exitCode_of_deliver h, fun _ => ?_⟩
        simp only [scan] at hscan
        split at hscan
        · cases hscan
        · rename_i settings hsettings
          exact ⟨settings, format, hsettings, hformat⟩

/-- A run that has a report could read every setting. -/
theorem fault?_eq_none_of_settings {c : Config} (hd : Config.ofDocument d = .ok c) {settings : ScanSettings}
    {format : String} {name : Text.Points} (hlevel : (a.override c).logLevel = .ok name)
    (hsettings : ScanSettings.ofConfig w (.ofString a.path) (a.override c) = .ok settings)
    (hformat : formatOf a (a.override c) = .ok format) (hworkers : a.fault? d .workers = none) (s : Setting) :
    a.fault? d s = none := by
  obtain ⟨hpolicy, hfast, -, -, hlanguages⟩ := ScanSettings.of_ofConfig hsettings
  cases s with
  | workers => exact hworkers
  | failFast => simp only [Arguments.fault?, hd, Arguments.faultIn?, hfast, reason?]
  | logLevel => simp only [Arguments.fault?, hd, Arguments.faultIn?, hlevel, reason?]
  | languages => simp only [Arguments.fault?, hd, Arguments.faultIn?, hlanguages, reason?]
  | policy => simp only [Arguments.fault?, hd, Arguments.faultIn?, hpolicy, reason?]
  | format => simp only [Arguments.fault?, hd, Arguments.faultIn?, hformat, reason?]

section Run

variable (h : w.HoldsConfig path d) (ha : a.config = some path) {args : List String}
  (hargs : Arguments.parse args = .ok a) (schedule : Schedule) (g : Grammars)

include h ha hargs

theorem run_of_reported {s : Setting} {e : SettingError} (hs : a.fault? d s = some e) (he : e.isReported = true) :
    run schedule w g args = .finished { exitCode := 2, complaint := some e.message } := by
  have hworkers := fault?_workers_of_reported h.eachKeyOnce hs he
  obtain ⟨e', hfault, hconfig⟩ | ⟨c, hfault, -⟩ := configure_cases h ha
  · obtain rfl := Option.some.inj (hworkers.symm.trans hfault)
    have hload : isReportedLoad (.config e') = true := he
    simp only [run, hargs, hconfig, hload, if_true]
    rfl
  · rw [hworkers] at hfault
    cases hfault

/-- A run that does not crash has reported the number of workers, or has read it and the log level and scans. -/
theorem run_cases :
    (∃ crash, run schedule w g args = .crashed crash) ∨
      (∃ e, a.fault? d .workers = some e ∧ e.isReported = true) ∨
      ∃ c name threshold, Config.ofDocument d = .ok c ∧ a.fault? d .workers = none ∧
        (a.override c).logLevel = .ok name ∧
        run schedule w g args = measure schedule w g a (a.override c) threshold := by
  simp only [run, hargs]
  obtain ⟨e, hfault, hconfig⟩ | ⟨c, hfault, hd, hconfig⟩ := configure_cases h ha
  · cases he : e.isReported with
    | true => exact .inr (.inl ⟨.config e, hfault, he⟩)
    | false =>
      have hload : isReportedLoad (.config e) = false := he
      exact .inl ⟨.load (.config e), by simp [hconfig, hload]⟩
  · rw [hconfig]
    cases hlevel : (a.override c).logLevel with
    | error e => exact .inl ⟨.config e, by simp only [hlevel]⟩
    | ok name =>
      cases hthreshold : thresholdFor a.verbosity name with
      | error e => exact .inl ⟨.level e, by simp only [hlevel, hthreshold]⟩
      | ok threshold =>
        exact .inr (.inr ⟨c, name, threshold, hd, hfault, hlevel, by simp only [hlevel, hthreshold]⟩)

end Run

/-- **Which bad configurations are reported.** Take a configuration file that holds a document, and arguments that name
it. A failure to read a setting escapes exactly if the document is a mapping that is misshapen there, and it is reported
exactly if the document is no mapping or asks for a number of workers that is none and can be shown. A reported failure
ends the run with code 2 and its message, and nothing else ends it with that code. A run that comes to a report could
read every setting; one whose number of workers escapes, or whose log level does and nothing is reported, crashes. -/
theorem settings_escape_iff_misshapen (h : w.HoldsConfig path d) (ha : a.config = some path) :
    (∀ s, a.Escapes d s ↔ d.isMap = true ∧ a.isMisshapen d s = true) ∧
      (∀ s, a.Reports d s ↔ d.isMap = false ∨ s = .workers ∧ a.asksBadCount d = true) ∧
      ∀ schedule g args, Arguments.parse args = .ok a →
        (∀ s e, a.fault? d s = some e → e.isReported = true →
          run schedule w g args = .finished { exitCode := 2, complaint := some e.message }) ∧
        (∀ f, run schedule w g args = .finished f →
          (f.exitCode = 2 → ∃ s, a.Reports d s) ∧ (f.complaint = none → ∀ s, a.fault? d s = none)) ∧
        (a.Escapes d .workers ∨ (a.Escapes d .logLevel ∧ ∀ s, ¬ a.Reports d s) →
          ∃ crash, run schedule w g args = .crashed crash) := by
  refine ⟨escapes_iff h.eachKeyOnce, reports_iff h.eachKeyOnce, fun schedule g args hargs =>
    ⟨fun s e => run_of_reported h ha hargs schedule g, fun f hf => ?_, fun hescapes => ?_⟩⟩
  · obtain ⟨crash, hrun⟩ | ⟨e, hfault, he⟩ | ⟨c, name, threshold, hd, hworkers, hlevel, hrun⟩ :=
      run_cases h ha hargs schedule g
    · rw [hrun] at hf
      cases hf
    · obtain rfl := Outcome.finished.inj ((run_of_reported h ha hargs schedule g hfault he).symm.trans hf)
      exact ⟨fun _ => ⟨.workers, e, hfault, he⟩, nofun⟩
    · obtain ⟨hcode, hreport⟩ := of_measure_eq_finished (hrun.symm.trans hf)
      refine ⟨fun htwo => absurd htwo hcode, fun hnone => ?_⟩
      obtain ⟨settings, format, hsettings, hformat⟩ := hreport hnone
      exact fault?_eq_none_of_settings hd hlevel hsettings hformat hworkers
  · obtain hcrash | ⟨e, hfault, he⟩ | ⟨c, name, threshold, hd, hworkers, hlevel, -⟩ :=
      run_cases h ha hargs schedule g
    · exact hcrash
    · rcases hescapes with ⟨e', hfault', he'⟩ | ⟨-, hnone⟩
      · obtain rfl := Option.some.inj (hfault.symm.trans hfault')
        rw [he] at he'
        cases he'
      · exact absurd ⟨e, hfault, he⟩ (hnone .workers)
    · rcases hescapes with ⟨e', hfault', -⟩ | ⟨⟨e', hfault', -⟩, -⟩
      · rw [hworkers] at hfault'
        cases hfault'
      · simp [Arguments.fault?, hd, Arguments.faultIn?, hlevel, reason?] at hfault'

/-! ## An empty section -/

/-- A document with a name for the engine section and nothing behind it. -/
def emptyEngine : Document := .map [(.text "engine", .null)]

def emptyEngineText : String := "engine:\n"

def emptyEngineWorkspace : Workspace := { files := [(["c.yaml"], emptyEngineText.toUTF8.toList)] }

theorem holdsConfig_emptyEngine : emptyEngineWorkspace.HoldsConfig "c.yaml" emptyEngine := by
  have hlocate : emptyEngineWorkspace.locate (Path.ofString "c.yaml") = .ok (.inside ["c.yaml"]) := by
    rw [Workspace.locate, String.contains_char_eq]
    decide +kernel
  refine ⟨by decide, emptyEngineText.toUTF8.toList, emptyEngineText.toList, ?_, by decide +kernel, ?_⟩
  · rw [Workspace.entry?, hlocate]
    decide +kernel
  · rw [show Config.unifyLineEnds emptyEngineText.toList = emptyEngineText.toList by decide +kernel]
    rfl

/-- Arguments that name the file and no more. -/
def namingFile : Arguments := { config := some "c.yaml" }

/-- The engine section of the file is null: two settings escape, and none if the command line overrides one of them. -/
theorem emptyEngine_escapes_unless_overridden :
    emptyEngineWorkspace.HoldsConfig "c.yaml" emptyEngine ∧
      (∀ s, namingFile.Escapes emptyEngine s ↔ s = .workers ∨ s = .failFast) ∧
      ∀ s, ¬ { namingFile with failFast := true }.Escapes emptyEngine s := by
  refine ⟨holdsConfig_emptyEngine, fun s => ?_, fun s => ?_⟩
  · rw [(settings_escape_iff_misshapen holdsConfig_emptyEngine rfl).1 s]
    cases s <;> decide
  · rw [(settings_escape_iff_misshapen holdsConfig_emptyEngine rfl).1 s]
    cases s <;> decide

/-- The failure is in the configuration, but the run does not end with the code for it. -/
theorem emptyEngine_crashes :
    emptyEngineWorkspace.HoldsConfig "c.yaml" emptyEngine ∧
      Arguments.parse ["measure", "--config", "c.yaml"] = .ok namingFile ∧
      ∀ schedule g, run schedule emptyEngineWorkspace g ["measure", "--config", "c.yaml"] =
        .crashed (.load (.config .badSection)) := by
  have hargs : Arguments.parse ["measure", "--config", "c.yaml"] = .ok namingFile := rfl
  refine ⟨holdsConfig_emptyEngine, hargs, fun schedule g => ?_⟩
  have hfault : namingFile.fault? emptyEngine .workers = some (.config .badSection) := rfl
  obtain ⟨e, hfault', hconfig⟩ | ⟨c, hfault', -⟩ := configure_cases holdsConfig_emptyEngine (a := namingFile) rfl
  · cases hfault.symm.trans hfault'
    simp only [run, hargs, hconfig]
    rfl
  · cases hfault.symm.trans hfault'

end Command

end HandlerComplexity
