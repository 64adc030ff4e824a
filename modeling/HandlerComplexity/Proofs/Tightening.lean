import HandlerComplexity.Proofs.Reading
import Mathlib.Data.List.Basic

/-!
# Tighter policies

A policy is tighter than another if it turns a switch on or has more patterns. It then refuses a class or says what the
other one says, and so measures fewer classes. Of the classes of one name it may measure another one than before, since
the first that is left wins; but it neither brings in a new name nor adds a failure.

* `Policy.Tightens`: the tighter policies; `Policy.Tightens.accepts`: what they say about a class.
* `Narrows`: what the tighter of two collections leaves out.
* `collect_tightened`: collecting with the tighter policy narrows the collection.
-/

namespace HandlerComplexity

/-! ## Patterns -/

/-- The patterns of a list in their order, with texts added anywhere between them. -/
inductive MorePatterns : List Document → List Document → Prop
  | nil : MorePatterns [] []
  | keep {ps qs : List Document} (d : Document) (h : MorePatterns ps qs) : MorePatterns (d :: ps) (d :: qs)
  | add {ps qs : List Document} {s : Scalar} (hs : s.points?.isSome = true) (h : MorePatterns ps qs) :
    MorePatterns ps (.scalar s :: qs)

namespace MorePatterns

variable {ps qs : List Document}

/-- With more patterns, a name is matched, or the outcome is the same: what is added cannot fail. -/
theorem matchesAny (h : MorePatterns ps qs) (name : String) :
    Policy.matchesAny name qs = .ok true ∨ Policy.matchesAny name ps = Policy.matchesAny name qs := by
  induction h with
  | nil => exact .inr rfl
  | keep d h ih =>
    cases d with
    | scalar s =>
      rw [Policy.matchesAny, Policy.matchesAny]
      cases s.points? with
      | none => exact .inr rfl
      | some pattern =>
        dsimp only
        split_ifs
        · exact .inl rfl
        · exact ih
    | list items => exact .inr rfl
    | map entries => exact .inr rfl
    | set items => exact .inr rfl
    | pair first second => exact .inr rfl
  | @add ps qs s hs h ih =>
    obtain ⟨pattern, hpattern⟩ := Option.isSome_iff_exists.mp hs
    rw [Policy.matchesAny, hpattern]
    dsimp only
    split_ifs
    · exact .inl rfl
    · exact ih

theorem mem {d : Document} (h : MorePatterns ps qs) (hd : d ∈ ps) : d ∈ qs := by
  induction h with
  | nil => exact hd
  | keep e h ih =>
    rcases List.mem_cons.mp hd with rfl | hd
    · exact List.mem_cons_self
    · exact List.mem_cons_of_mem _ (ih hd)
  | add hs h ih => exact List.mem_cons_of_mem _ (ih hd)

end MorePatterns

namespace Policy

/-- Only a list of texts can be gone through without a match. -/
theorem texts_of_matchesAny {name : String} {patterns : List Document} (h : matchesAny name patterns = .ok false) :
    ∀ d ∈ patterns, ∃ s, d = .scalar s ∧ s.points?.isSome = true := by
  fun_induction matchesAny name patterns with
  | case1 =>
    intro d hd
    cases hd
  | case2 => cases h
  | case3 s ps pattern hpattern hno ih =>
    intro d hd
    rcases List.mem_cons.mp hd with rfl | hd
    · exact ⟨s, rfl, by rw [hpattern]; rfl⟩
    · exact ih h d hd
  | case4 => cases h
  | case5 => cases h

/-- A policy that accepts any class at all has texts for its patterns. -/
theorem hasTextPatterns_of_accepts {p : Policy} {u : ClassUnit} (h : p.accepts u = .ok true) : p.HasTextPatterns := by
  unfold accepts at h
  split_ifs at h
  · cases h
  · cases h
  · rcases hm : matchesAny u.qualifiedName p.patterns with e | b
    · rw [hm] at h
      cases h
    · rw [hm] at h
      cases b with
      | true => cases h
      | false => exact texts_of_matchesAny hm

/-! ## Tighter policies -/

/-- Every switch that is on in the one policy is on in the tighter one, and the tighter one has all its patterns. -/
structure Tightens (q p : Policy) : Prop where
  tests : p.excludeTests.holds = true → q.excludeTests.holds = true
  generated : p.excludeGenerated.holds = true → q.excludeGenerated.holds = true
  patterns : MorePatterns p.patterns q.patterns

namespace Tightens

variable {p q : Policy} (h : q.Tightens p)

include h

/-- **A tighter policy** refuses a class, or says of it what the other policy says. -/
theorem accepts (u : ClassUnit) : q.accepts u = .ok false ∨ p.accepts u = q.accepts u := by
  unfold Policy.accepts
  by_cases hgenerated : (q.excludeGenerated.holds && u.generated) = true
  · exact .inl (if_pos hgenerated)
  by_cases htests : (q.excludeTests.holds && u.isTest) = true
  · left
    rw [if_neg hgenerated, if_pos htests]
  -- neither switch of the tighter policy refuses the class, so neither does one of the other
  have hgenerated' : ¬ (p.excludeGenerated.holds && u.generated) = true := by
    intro hp
    rw [Bool.and_eq_true] at hp hgenerated
    exact hgenerated ⟨h.generated hp.1, hp.2⟩
  have htests' : ¬ (p.excludeTests.holds && u.isTest) = true := by
    intro hp
    rw [Bool.and_eq_true] at hp htests
    exact htests ⟨h.tests hp.1, hp.2⟩
  rw [if_neg hgenerated, if_neg htests, if_neg hgenerated', if_neg htests']
  rcases h.patterns.matchesAny u.qualifiedName with hq | hsame
  · left
    rw [hq]
    rfl
  · right
    rw [hsame]

theorem takes {u : ClassUnit} (hu : q.takes u = true) : p.takes u = true := by
  have hq : q.accepts u = .ok true := of_decide_eq_true hu
  rcases h.accepts u with hno | hsame
  · rw [hq] at hno
    cases hno
  · exact decide_eq_true (hsame.trans hq)

theorem decides {u : ClassUnit} (hu : ∃ b, p.accepts u = .ok b) : q.accepts u = .ok (q.takes u) := by
  obtain ⟨b, hb⟩ := hu
  rcases h.accepts u with hno | hsame
  · exact accepts_eq_takes hno
  · exact accepts_eq_takes (hsame.symm.trans hb)

theorem filter_takes (units : List ClassUnit) : (units.filter q.takes).Sublist (units.filter p.takes) :=
  List.monotone_filter_right units fun _ hu => h.takes hu

theorem hasTextPatterns (hq : q.HasTextPatterns) : p.HasTextPatterns :=
  fun d hd => hq d (h.patterns.mem hd)

end Tightens

end Policy

/-! ## Collections with a tighter policy -/

/-- What the tighter of two collections of the same units leaves out. -/
structure Narrows (units : List ClassUnit) (loose : Progress) (a : Collected) (tight : Progress) (b : Collected) :
    Prop where
  /-- No name is measured that was not measured before. -/
  names : ∀ name, tight.store.contains name = true → loose.store.contains name = true
  skipped : a.skipped ≤ b.skipped
  /-- No target has more failures than before. -/
  errors : ∀ name, b.errors.countP (·.target = name) ≤ a.errors.countP (·.target = name)
  /-- The name of one unit only keeps its value, if it is still measured. -/
  values : ∀ name u, partsOf units name = [u] → tight.store.contains name = true →
    ∃ m, tight.store.measuresFor name = [m] ∧ loose.store.measuresFor name = [m]

/-- The failures of a target, as many as there are refused units of that name. -/
theorem countP_errors_of (accepts : ClassUnit → Bool) (units : List ClassUnit) (skipped : Nat) (name : String) :
    (Collected.of (verdicts Store.empty.contains (units.filter accepts)) skipped).errors.countP (·.target = name) =
      ((partsOf (units.filter accepts) name).eraseP (·.isScored)).length := by
  rw [List.countP_eq_length_filter, filter_errors_of, refusedOf_named, List.length_map]
  rfl

/-- What the fewer units of a tighter policy leave behind. -/
theorem narrows_of_takes {p q : Policy} (h : q.Tightens p) (units : List ClassUnit) (log log' : Log) :
    Narrows units ⟨Store.empty.run (units.filter p.takes), log⟩
      (.of (verdicts Store.empty.contains (units.filter p.takes)) (units.countP (!p.takes ·)))
      ⟨Store.empty.run (units.filter q.takes), log'⟩
      (.of (verdicts Store.empty.contains (units.filter q.takes)) (units.countP (!q.takes ·))) where
  names name hname := by
    obtain ⟨u, hu, hn, hscored⟩ := (Store.contains_run rfl _).mp hname
    exact (Store.contains_run rfl _).mpr ⟨u, (h.filter_takes units).subset hu, hn, hscored⟩
  skipped := by
    refine List.countP_mono_left fun u _ hu => ?_
    rw [Bool.not_eq_true'] at hu ⊢
    by_contra hq
    rw [h.takes (Bool.not_eq_false _ ▸ hq)] at hu
    cases hu
  errors name := by
    rw [countP_errors_of, countP_errors_of]
    exact (((h.filter_takes units).filter _).eraseP).length_le
  values name u hu hname := by
    obtain ⟨v, hv, hn, hscored⟩ := (Store.contains_run rfl _).mp hname
    obtain ⟨hmem, htaken⟩ := List.mem_filter.mp hv
    have hsame : v = u := by
      have hpart : v ∈ partsOf units name := List.mem_filter.mpr ⟨hmem, decide_eq_true hn⟩
      rw [hu] at hpart
      exact List.mem_singleton.mp hpart
    subst hsame
    -- under a policy that takes it, the one unit of the name is recorded
    have hmeasures : ∀ r : Policy, r.takes v = true →
        (Store.empty.run (units.filter r.takes)).measuresFor name = [v.measure] := by
      intro r hr
      have hparts : partsOf (units.filter r.takes) name = [v] := by
        rw [partsOf, List.filter_filter]
        simp only [Bool.and_comm (decide _)]
        rw [← List.filter_filter, show units.filter (fun w => decide (w.qualifiedName = name)) = [v] from hu]
        simp [hr]
      rw [Store.measuresFor_run rfl, hparts, List.find?_cons, hscored]
      rfl
    exact ⟨v.measure, hmeasures q htaken, hmeasures p (h.takes htaken)⟩

/-- A collector with a policy, one worker and the default extractor, which goes on after failures. -/
def collectorOf (p : Policy) : Collector := { eligibility := eligible (some p), workers := 1 }

theorem collect_collectorOf {p : Policy} {units : List ClassUnit} (hp : ∀ u ∈ units, p.accepts u = .ok (p.takes u))
    (s : Schedule) :
    ∃ log, collect s (collectorOf p) .empty units =
      (⟨Store.empty.run (units.filter p.takes), log⟩,
        .ok (.of (verdicts Store.empty.contains (units.filter p.takes)) (units.countP (!p.takes ·)))) :=
  collect_one_worker hp rfl rfl (fun h => Int.lt_irrefl 1 h.2) s .empty

/-- A unit about which the policy does not decide leaves the collection without a result. -/
theorem collect_of_undecided {p : Policy} {units : List ClassUnit} (hp : ¬ ∀ u ∈ units, ∃ b, p.accepts u = .ok b)
    (s : Schedule) :
    ∃ log, collect s (collectorOf p) .empty units = (⟨.empty, log⟩, .error (.policy .notText)) := by
  obtain ⟨u, e, log, -, he, hsift⟩ := @sift_undecided (collectorOf p).eligibility units hp [] [] 0
  obtain rfl := Policy.eq_notText_of_accepts he
  exact ⟨log, by rw [collect, hsift]⟩

/-- A tighter policy that decides where the other one does not refuses every class: a policy that accepts one has texts
for its patterns, and then the other has them too. -/
theorem takes_none_of_undecided {p q : Policy} (h : q.Tightens p) {units : List ClassUnit}
    (hp : ¬ ∀ u ∈ units, ∃ b, p.accepts u = .ok b) (u : ClassUnit) : q.takes u = false := by
  by_contra hq
  have hu : q.accepts u = .ok true := of_decide_eq_true (Bool.not_eq_false _ ▸ hq)
  have htexts := h.hasTextPatterns (Policy.hasTextPatterns_of_accepts hu)
  exact hp fun v _ => ⟨_, htexts.decides v⟩

/-- **A tighter policy only removes classes.** One worker who goes on after failures, from an empty store, either has a
result with both policies, and then the tighter one narrows it; or the looser policy has a pattern that is no text and
fails on it. In that case nothing is recorded with either: the tighter one fails in the same way, or refuses all
classes before it comes to that pattern. -/
theorem collect_tightened {p q : Policy} (h : q.Tightens p) (s s' : Schedule) (units : List ClassUnit) :
    (∃ loose a tight b, collect s (collectorOf p) .empty units = (loose, .ok a) ∧
        collect s' (collectorOf q) .empty units = (tight, .ok b) ∧ Narrows units loose a tight b) ∨
      ¬ p.HasTextPatterns ∧
        (∃ log, collect s (collectorOf p) .empty units = (⟨.empty, log⟩, .error (.policy .notText))) ∧
        ∃ log, collect s' (collectorOf q) .empty units = (⟨.empty, log⟩, .error (.policy .notText)) ∨
          collect s' (collectorOf q) .empty units = (⟨.empty, log⟩, .ok ⟨0, units.length, []⟩) := by
  by_cases hp : ∀ u ∈ units, ∃ b, p.accepts u = .ok b
  · left
    have hdecided : ∀ u ∈ units, p.accepts u = .ok (p.takes u) := by
      intro u hu
      obtain ⟨b, hb⟩ := hp u hu
      exact Policy.accepts_eq_takes hb
    obtain ⟨log, hloose⟩ := collect_collectorOf hdecided s
    obtain ⟨log', htight⟩ := collect_collectorOf (fun u hu => h.decides (hp u hu)) s'
    exact ⟨_, _, _, _, hloose, htight, narrows_of_takes h units log log'⟩
  · right
    refine ⟨fun htexts => hp fun u _ => ⟨_, htexts.decides u⟩, collect_of_undecided hp s, ?_⟩
    by_cases hq : ∀ u ∈ units, ∃ b, q.accepts u = .ok b
    · have hdecided : ∀ u ∈ units, q.accepts u = .ok (q.takes u) := by
        intro u hu
        obtain ⟨b, hb⟩ := hq u hu
        exact Policy.accepts_eq_takes hb
      obtain ⟨log, htight⟩ := collect_collectorOf hdecided s'
      have hnone : q.takes = fun _ => false := funext (takes_none_of_undecided h hp)
      refine ⟨log, .inr ?_⟩
      rw [htight, hnone, List.filter_false, Store.run_nil]
      simp [Collected.of, verdicts, recordedOf, refusedOf]
    · obtain ⟨log, htight⟩ := collect_of_undecided hq s'
      exact ⟨log, .inl htight⟩

/-- A policy that leaves nothing out. -/
def openPolicy : Policy := ⟨.ofBool false, .ofBool false, []⟩

/-- A policy that leaves out tests and the classes of a package. -/
def closedPolicy : Policy := ⟨.ofBool true, .ofBool false, [.ofText "q.*"]⟩

theorem closedPolicy_tightens : closedPolicy.Tightens openPolicy where
  tests _ := rfl
  generated h := h
  patterns := .add rfl .nil

/-- The mixed list, with a test and a class of that package behind it. -/
def narrowedUnits : List ClassUnit := mixedUnits ++ [catchingUnit "p.ATest" true, catchingUnit "q.B" true]

/-- The names and failures that the tighter policy leaves of the list were there before. -/
theorem closedPolicy_narrows :
    closedPolicy.Tightens openPolicy ∧ ∃ loose a tight b,
      collect .inOrder (collectorOf openPolicy) .empty narrowedUnits = (loose, .ok a) ∧
      collect .inOrder (collectorOf closedPolicy) .empty narrowedUnits = (tight, .ok b) ∧
      Narrows narrowedUnits loose a tight b := by
  refine ⟨closedPolicy_tightens, ?_⟩
  rcases collect_tightened closedPolicy_tightens .inOrder .inOrder narrowedUnits with hboth | ⟨hno, -, -⟩
  · exact hboth
  · exact absurd (fun d hd => by cases hd) hno

end HandlerComplexity
