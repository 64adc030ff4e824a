import HandlerComplexity.Proofs.Settings

/-!
# Lookups along key paths

What one mapping laid over another holds at a key path depends on what both hold at every place on the way: a value of
the upper one that is no mapping hides what lies below it, and a mapping of the upper one replaces what is no mapping.

* `Document.at?`: what a document holds at a key path.
* `Document.at?_overlayValue`: the lookup in two layers, by induction on the path.
* `Document.LookupLaw`: the cases it comes to, and the order of the keys.
* `Command.overlay_obeys_lookup_law`: the law, and what the command line leaves as it is in a configuration.
-/

namespace HandlerComplexity

namespace Document

/-- What a document holds at a key path. -/
def at? : Document → List Scalar → Option Document
  | d, [] => some d
  | d, k :: p => (get? k d.entries).bind (at? · p)

/-- A document holds a mapping at a key path. -/
def HoldsMap (d : Document) (p : List Scalar) : Prop := ∃ es, d.at? p = some (.map es)

@[simp] theorem at?_nil (d : Document) : d.at? [] = some d := rfl

theorem at?_cons (d : Document) (k : Scalar) (p : List Scalar) :
    d.at? (k :: p) = (get? k d.entries).bind (·.at? p) := rfl

theorem exists_map_of_isMap {d : Document} (h : d.isMap = true) : ∃ es, d = .map es := by
  cases d with
  | map es => exact ⟨es, rfl⟩
  | _ => cases h

/-- Only a mapping holds something beyond itself. -/
theorem at?_cons_of_not_isMap {d : Document} (h : d.isMap = false) (k : Scalar) (p : List Scalar) :
    d.at? (k :: p) = none := by
  cases d with
  | map es => cases h
  | _ => rfl

theorem at?_append (d : Document) (p q : List Scalar) : d.at? (p ++ q) = (d.at? p).bind (·.at? q) := by
  induction p generalizing d with
  | nil => rfl
  | cons k p ih =>
    rw [List.cons_append, at?_cons, at?_cons, Option.bind_assoc]
    exact Option.bind_congr fun v _ => ih v

theorem overlayValue_map_map (below layer : Entries) :
    overlayValue (some (.map below)) (.map layer) = .map (overlay below layer) := by
  rw [overlayValue]

/-! ## Two layers -/

/-- On the way along a path, all that the upper document holds are mappings that lie over mappings. -/
def KeepsBelow (base : Option Document) (o : Document) (p : List Scalar) : Prop :=
  ∀ q, q <+: p → ∀ v, o.at? q = some v → v.isMap = true ∧ ∃ below, base.bind (·.at? q) = some (.map below)

theorem keepsBelow_cons {below layer : Entries} {k : Scalar} {p : List Scalar} :
    KeepsBelow (some (.map below)) (.map layer) (k :: p) ↔
      ∀ v, get? k layer = some v → KeepsBelow (get? k below) v p := by
  constructor
  · intro h v hv q hq w hw
    refine h (k :: q) (List.cons_prefix_cons.mpr ⟨rfl, hq⟩) w ?_
    rw [at?_cons]
    exact Option.bind_eq_some_iff.mpr ⟨v, hv, hw⟩
  · rintro h q hq w hw
    rcases q with _ | ⟨l, q⟩
    · cases hw
      exact ⟨rfl, below, rfl⟩
    · obtain ⟨rfl, hrest⟩ := List.cons_prefix_cons.mp hq
      rw [at?_cons] at hw
      obtain ⟨v, hv, hw⟩ := Option.bind_eq_some_iff.mp hw
      exact h v hv q hrest w hw

/-- **Lookup in two layers.** What the upper document holds at a path is laid over what the lower one holds there; what
it does not hold is found below if the way there leads through mappings that lie over mappings. The induction is on the
path, and each key goes one layer down in both documents. -/
theorem at?_overlayValue {o : Document} (ho : o.EachKeyOnce) (base : Option Document) (p : List Scalar) :
    (∀ v, o.at? p = some v → (overlayValue base o).at? p = some (overlayValue (base.bind (·.at? p)) v)) ∧
      (o.at? p = none → KeepsBelow base o p → (overlayValue base o).at? p = base.bind (·.at? p)) ∧
      (o.at? p = none → ¬ KeepsBelow base o p → (overlayValue base o).at? p = none) := by
  induction p generalizing o base with
  | nil => simp
  | cons k p ih =>
    by_cases hmaps : (∃ layer, o = .map layer) ∧ ∃ below, base = some (.map below)
    · obtain ⟨⟨layer, rfl⟩, below, rfl⟩ := hmaps
      obtain - | - | ⟨once, hall⟩ := ho
      rw [overlayValue_map_map, keepsBelow_cons]
      simp only [at?_cons, Document.entries, Option.bind_some, get?_overlay once]
      cases hget : get? k layer with
      | none => simp
      | some v =>
        obtain ⟨l, hmem⟩ := mem_of_get? hget
        have hrest := ih (hall _ hmem) (get? k below)
        simpa using hrest
    · -- the upper document takes the place of the lower one as a whole
      have hsame : overlayValue base o = o := by
        by_cases ho : ∃ layer, o = .map layer
        · exact overlayValue_of_base (fun es hes => hmaps ⟨ho, es, hes⟩) o
        · exact overlayValue_of_not_map fun es hes => ho ⟨es, hes⟩
      have hkeeps : ¬ KeepsBelow base o (k :: p) := by
        intro h
        obtain ⟨hmap, below, hbelow⟩ := h [] List.nil_prefix o rfl
        exact hmaps ⟨exists_map_of_isMap hmap, below, by simpa using hbelow⟩
      rw [hsame]
      refine ⟨fun v hv => ?_, fun _ h => absurd h hkeeps, fun hnone _ => hnone⟩
      have hbelow : base.bind (·.at? (k :: p)) = none := by
        have ho : ∃ layer, o = .map layer := by
          refine exists_map_of_isMap (Bool.not_eq_false _ ▸ fun hno => ?_)
          rw [at?_cons_of_not_isMap hno] at hv
          cases hv
        refine Option.bind_eq_none_iff.mpr fun w hw => at?_cons_of_not_isMap ?_ k p
        refine Bool.eq_false_iff.mpr fun hmap => ?_
        obtain ⟨below, rfl⟩ := exists_map_of_isMap hmap
        exact hmaps ⟨ho, below, hw⟩
      rw [hv, hbelow, overlayValue_of_base (by simp)]

/-! ## The law -/

/-- No mapping that a document holds repeats a key. -/
theorem EachKeyOnce.at? {d v : Document} (h : d.EachKeyOnce) {p : List Scalar} (hv : d.at? p = some v) :
    v.EachKeyOnce := by
  induction p generalizing d with
  | nil =>
    cases hv
    exact h
  | cons k p ih =>
    rw [at?_cons] at hv
    obtain ⟨w, hw, hrest⟩ := Option.bind_eq_some_iff.mp hv
    obtain ⟨l, hmem⟩ := mem_of_get? hw
    cases h with
    | map once hall => exact ih (hall _ hmem) hrest
    | _ => cases hmem

/-- The keys of one mapping laid over another: those of the lower one, then the new ones of the upper one. -/
theorem map_fst_overlay {base layer : Entries} (hb : KeysOnce base) (hl : KeysOnce layer) :
    (overlay base layer).map (·.1) = base.map (·.1) ++ (layer.filter (isNew base)).map (·.1) := by
  rw [overlay_eq hb hl, List.map_append, List.map_map]
  rfl

/-- What is found at a key path when a mapping `o` is laid over a mapping `b`. -/
structure LookupLaw (b o : Entries) (p : List Scalar) : Prop where
  /-- What `o` holds there, if it is no mapping or there is no mapping below it. -/
  taken : ∀ v, (map o).at? p = some v → v.isMap = false ∨ ¬ (map b).HoldsMap p →
    (map (overlay b o)).at? p = some v
  /-- The one laid over the other, if both hold mappings there. -/
  merged : ∀ below layer, (map b).at? p = some (map below) → (map o).at? p = some (map layer) →
    (map (overlay b o)).at? p = some (map (overlay below layer))
  /-- Nothing beyond what is no mapping in `o`. -/
  hidden : ∀ q r v, p = q ++ r → r ≠ [] → (map o).at? q = some v → v.isMap = false →
    (map (overlay b o)).at? p = none
  /-- Otherwise, what `b` holds there, if each mapping of `o` on the way lies over a mapping. -/
  kept : (map o).at? p = none → (∀ q v, q <+: p → (map o).at? q = some v → v.isMap = true) →
    (∀ q, q <+: p → (map o).HoldsMap q → (map b).HoldsMap q) → (map (overlay b o)).at? p = (map b).at? p
  /-- And nothing if one of them does not. -/
  lost : (map o).at? p = none → (∃ q, q <+: p ∧ (map o).HoldsMap q ∧ ¬ (map b).HoldsMap q) →
    (map (overlay b o)).at? p = none
  /-- The keys of `b` keep their order, and the new ones of `o` come behind them in theirs. -/
  order : ∀ below layer, (map b).at? p = some (map below) → (map o).at? p = some (map layer) →
    (overlay below layer).map (·.1) = below.map (·.1) ++ (layer.filter (isNew below)).map (·.1)

theorem lookupLaw {b o : Entries} (hb : (map b).EachKeyOnce) (ho : (map o).EachKeyOnce) (p : List Scalar) :
    LookupLaw b o p := by
  have hlook := at?_overlayValue ho (some (map b)) p
  rw [overlayValue_map_map, Option.bind_some] at hlook
  obtain ⟨htaken, hkept, hlost⟩ := hlook
  refine ⟨?_, ?_, ?_, ?_, ?_, ?_⟩
  · rintro v hv (hflat | hbelow)
    · rw [htaken v hv, overlayValue_of_not_map fun es hes => by rw [hes] at hflat; cases hflat]
    · rw [htaken v hv, overlayValue_of_base fun es hes => hbelow ⟨es, hes⟩]
  · intro below layer hbelow hlayer
    rw [htaken _ hlayer, hbelow, overlayValue_map_map]
  · rintro q r v rfl hr hv hflat
    have hnone : (map o).at? (q ++ r) = none := by
      obtain ⟨k, r, rfl⟩ := List.exists_cons_of_ne_nil hr
      rw [at?_append, hv, Option.bind_some, at?_cons_of_not_isMap hflat]
    refine hlost hnone fun h => ?_
    have hmap := (h q (List.prefix_append q r) v hv).1
    rw [hflat] at hmap
    cases hmap
  · intro hnone hmaps hmeets
    refine hkept hnone fun q hq v hv => ⟨hmaps q v hq hv, ?_⟩
    obtain ⟨es, rfl⟩ := exists_map_of_isMap (hmaps q v hq hv)
    exact hmeets q hq ⟨es, hv⟩
  · rintro hnone ⟨q, hq, ⟨es, hes⟩, hbelow⟩
    exact hlost hnone fun h => hbelow (h q hq _ hes).2
  · intro below layer hbelow hlayer
    obtain - | - | ⟨honce, -⟩ := hb.at? hbelow
    obtain - | - | ⟨honce', -⟩ := ho.at? hlayer
    exact map_fst_overlay honce honce'

end Document

/-! ## The command line -/

namespace Command

open Document

/-- The path of a setting of the engine. -/
def enginePath (name : String) : List Scalar := [Config.key "engine", Config.key name]

/-- The command line overrides two settings. -/
theorem key_of_mem_engineEntries {a : Arguments} {e : Scalar × Document} (h : e ∈ a.engineEntries) :
    e.1 = Config.key "max_workers" ∨ e.1 = Config.key "fail_fast" := by
  rw [Arguments.engineEntries, List.mem_append] at h
  rcases h with h | h
  · cases hw : a.workers with
    | none => simp [hw] at h
    | some n =>
      simp only [hw, List.mem_singleton] at h
      exact .inl (h ▸ rfl)
  · split_ifs at h
    · exact .inr (List.mem_singleton.mp h ▸ rfl)
    · cases h

theorem get?_engineEntries_eq_none (a : Arguments) {k : Scalar} (hworkers : k ≠ Config.key "max_workers")
    (hfast : k ≠ Config.key "fail_fast") : get? k a.engineEntries = none := by
  refine get?_eq_none_iff.mpr fun e he => Bool.eq_false_iff.mpr fun hsame => ?_
  rcases key_of_mem_engineEntries he with hkey | hkey
  · rw [hkey] at hsame
    exact hworkers (Scalar.text_same_iff.mp hsame)
  · rw [hkey] at hsame
    exact hfast (Scalar.text_same_iff.mp hsame)

/-- **What the command line leaves as it is**, in a configuration whose engine section is a mapping. -/
theorem at?_override {a : Arguments} {c : Config} {engine : Entries}
    (hengine : get? (Config.key "engine") c.entries = some (.map engine)) {p : List Scalar}
    (hworkers : ¬ enginePath "max_workers" <+: p) (hfast : ¬ enginePath "fail_fast" <+: p) :
    (map (a.override c).entries).at? p = (map c.entries).at? p ∨
      p <+: [Config.key "engine"] ∧ (map (a.override c).entries).HoldsMap p ∧ (map c.entries).HoldsMap p := by
  cases ha : a.setsEngine with
  | false =>
    rw [override_of_not_setsEngine ha]
    exact .inl rfl
  | true =>
    have hentries : (a.override c).entries =
        put (Config.key "engine") (.map (overlay engine a.engineEntries)) c.entries := by
      rw [override_of_setsEngine ha]
      simp only [Config.overlay, overlay, hengine, overlayValue_map_map]
    rcases p with _ | ⟨k, p⟩
    · exact .inr ⟨List.nil_prefix, ⟨_, rfl⟩, _, rfl⟩
    by_cases hk : (Config.key "engine").same k = true
    · obtain rfl : k = Config.key "engine" := Scalar.text_same_iff.mp hk
      have hover : ∀ q, (map (a.override c).entries).at? (Config.key "engine" :: q) =
          (map (overlay engine a.engineEntries)).at? q := by
        intro q
        rw [at?_cons, hentries, Document.entries, get?_put, if_pos hk, Option.bind_some]
      have hbase : ∀ q, (map c.entries).at? (Config.key "engine" :: q) = (map engine).at? q := by
        intro q
        rw [at?_cons, Document.entries, hengine, Option.bind_some]
      rcases p with _ | ⟨l, p⟩
      · exact .inr ⟨List.prefix_rfl, ⟨_, hover []⟩, ⟨_, hbase []⟩⟩
      · left
        have hnone : get? l a.engineEntries = none := by
          refine get?_engineEntries_eq_none a ?_ ?_
          · rintro rfl
            exact hworkers ⟨p, rfl⟩
          · rintro rfl
            exact hfast ⟨p, rfl⟩
        rw [hover, hbase, at?_cons, at?_cons, Document.entries, Document.entries,
          get?_overlay (keysOnce_engineEntries a), hnone]
    · left
      rw [at?_cons, at?_cons, hentries, Document.entries, Document.entries, get?_put, if_neg hk]

/-- The configuration of a document has a mapping for the engine if the document has one or has nothing there. -/
theorem exists_engine {layer : Entries} (h : (map layer).EachKeyOnce)
    (hgood : (map layer).hasBadSection "engine" = false) :
    ∃ engine, get? (Config.key "engine") (Config.default.overlay layer).entries = some (.map engine) := by
  obtain - | - | ⟨once, -⟩ := h
  have hlookup := get?_overlay once (Config.key "engine") Config.defaultEntries
  rw [Config.key, get?_engineDefaults] at hlookup
  change ∃ engine, get? (.text "engine") (Document.overlay Config.defaultEntries layer) = _
  rw [hlookup]
  rw [hasBadSection, sectionIn, Document.entries] at hgood
  cases hget : get? (.text "engine") layer with
  | none => exact ⟨engineDefaults, rfl⟩
  | some v =>
    rw [hget] at hgood
    cases v with
    | map es => exact ⟨_, congrArg some (overlayValue_map_map _ _)⟩
    | _ => cases hgood

/-- **Lookups along key paths.** One mapping laid over another obeys the lookup law at every path. So a run whose
configuration file holds a mapping, with a mapping or nothing for the engine, has the configuration of that document at
every path that does not lead to or through one of the two settings of the command line. -/
theorem overlay_obeys_lookup_law :
    (∀ b o : Entries, (map b).EachKeyOnce → (map o).EachKeyOnce → ∀ p, LookupLaw b o p) ∧
      ∀ (w : Workspace) (path : String) (layer : Entries) (a : Arguments) (c : Config),
        w.HoldsConfig path (map layer) → (map layer).hasBadSection "engine" = false → a.config = some path →
        a.configure w = .ok c →
        ∀ p, ¬ enginePath "max_workers" <+: p → ¬ enginePath "fail_fast" <+: p →
          (map c.entries).at? p = (map (Config.default.overlay layer).entries).at? p ∨
            p <+: [Config.key "engine"] ∧ (map c.entries).HoldsMap p ∧
              (map (Config.default.overlay layer).entries).HoldsMap p := by
  refine ⟨fun b o hb ho p => lookupLaw hb ho p, ?_⟩
  intro w path layer a c hholds hgood ha hc p hworkers hfast
  obtain ⟨engine, hengine⟩ := exists_engine hholds.eachKeyOnce hgood
  obtain ⟨e, -, hfails⟩ | ⟨c₀, -, hd, hconfig⟩ := configure_cases hholds ha
  · rw [hfails] at hc
    cases hc
  · obtain rfl : Config.default.overlay layer = c₀ := Except.ok.inj hd
    obtain rfl : a.override (Config.default.overlay layer) = c := Except.ok.inj (hconfig.symm.trans hc)
    exact at?_override hengine hworkers hfast

/-- A document with a mapping where the command line has a truth value. -/
def nestedFlag : Entries :=
  [(.text "engine", .map [(.text "fail_fast", .map [(.text "x", .ofInt 1)])])]

def nestedFlagText : String := "engine:\n  fail_fast:\n    x: 1\n"

def nestedFlagWorkspace : Workspace := { files := [(["c.yaml"], nestedFlagText.toUTF8.toList)] }

def isNestedFlag : Except LoadError Document → Bool
  | .ok (.map [(.text "engine", .map [(.text "fail_fast", .map [(.text "x", .scalar (.int 1))])])]) => true
  | _ => false

theorem eq_of_isNestedFlag {r : Except LoadError Document} (h : isNestedFlag r = true) : r = .ok (.map nestedFlag) := by
  unfold isNestedFlag at h
  split at h
  · rfl
  · cases h

theorem holdsConfig_nestedFlag : nestedFlagWorkspace.HoldsConfig "c.yaml" (.map nestedFlag) := by
  have hlocate : nestedFlagWorkspace.locate (Path.ofString "c.yaml") = .ok (.inside ["c.yaml"]) := by
    rw [Workspace.locate, String.contains_char_eq]
    decide +kernel
  refine ⟨by decide, nestedFlagText.toUTF8.toList, nestedFlagText.toList, ?_, by decide +kernel,
    eq_of_isNestedFlag (by decide +kernel)⟩
  rw [Workspace.entry?, hlocate]
  decide +kernel

theorem configure_nestedFlag (failFast : Bool) :
    { namingFile with failFast := failFast }.configure nestedFlagWorkspace =
      .ok ({ namingFile with failFast := failFast }.override (Config.default.overlay nestedFlag)) := by
  obtain ⟨e, hfault, -⟩ | ⟨c, -, hd, hconfig⟩ :=
    configure_cases (a := { namingFile with failFast := failFast }) holdsConfig_nestedFlag rfl
  · have hnone : { namingFile with failFast := failFast }.fault? (.map nestedFlag) .workers = none := by
      cases failFast <;> rfl
    rw [hnone] at hfault
    cases hfault
  · obtain rfl : Config.default.overlay nestedFlag = c := Except.ok.inj hd
    exact hconfig

/-- A number over the mapping, which hides what the mapping holds, and the log level of a run that stops at the first
failure. -/
theorem nestedFlag_lookups :
    (map nestedFlag).EachKeyOnce ∧ (map [(.text "engine", .ofInt 1)]).EachKeyOnce ∧
      LookupLaw nestedFlag [(.text "engine", .ofInt 1)] (enginePath "fail_fast") ∧
      nestedFlagWorkspace.HoldsConfig "c.yaml" (map nestedFlag) ∧
      (map nestedFlag).hasBadSection "engine" = false ∧
      ∃ c, { namingFile with failFast := true }.configure nestedFlagWorkspace = .ok c ∧
        ((map c.entries).at? [Config.key "logging", Config.key "level"] =
            (map (Config.default.overlay nestedFlag).entries).at? [Config.key "logging", Config.key "level"] ∨
          [Config.key "logging", Config.key "level"] <+: [Config.key "engine"] ∧
            (map c.entries).HoldsMap [Config.key "logging", Config.key "level"] ∧
            (map (Config.default.overlay nestedFlag).entries).HoldsMap [Config.key "logging", Config.key "level"]) := by
  have hnested : (map nestedFlag).EachKeyOnce := holdsConfig_nestedFlag.eachKeyOnce
  have hnumber : (map [(.text "engine", .ofInt 1)]).EachKeyOnce :=
    .map (List.pairwise_singleton _ _) (List.forall_mem_singleton.mpr (.scalar _))
  obtain ⟨hlaw, hruns⟩ := overlay_obeys_lookup_law
  refine ⟨hnested, hnumber, hlaw _ _ hnested hnumber _, holdsConfig_nestedFlag, rfl, _, configure_nestedFlag true, ?_⟩
  exact hruns _ _ _ _ _ holdsConfig_nestedFlag rfl rfl (configure_nestedFlag true) _ (by decide) (by decide)

/-- A value below the place of a truth value is gone once the command line sets that, although it is at another path. -/
theorem nestedFlag_lost :
    ∃ c c', namingFile.configure nestedFlagWorkspace = .ok c ∧
      { namingFile with failFast := true }.configure nestedFlagWorkspace = .ok c' ∧
      (map c.entries).at? (enginePath "fail_fast" ++ [.text "x"]) = some (.ofInt 1) ∧
      (map c'.entries).at? (enginePath "fail_fast" ++ [.text "x"]) = none :=
  ⟨_, _, configure_nestedFlag false, configure_nestedFlag true, rfl, rfl⟩

end Command

end HandlerComplexity
