import HandlerComplexity.Proofs.Split
import Mathlib.Algebra.Order.Monoid.Unbundled.WithTop
import Mathlib.Data.List.Dedup

/-!
# What putting parts together keeps

Units of one name that are all partial are put together in the place of the first of them. Names do not meet, so everything
is said for the units of one name first, and then for the list, which up to the order is its names with their units.

* `Node.amount`: a score as a number, with a top element for a score that is missing.
* `mergePartial_eq`: the units that remain, by their places; `partsOf_mergePartial_of_isDivided`: those of one name.
* `mergePartial_conserves`: what remains of a list, and that no score is lost; `mergePartial_order_free`: the order of the
  units does not matter.
-/

namespace HandlerComplexity

/-! ## Scores that may be missing -/

namespace Node

/-- A score as a number. A score that is missing is above all numbers, so a sum is missing as soon as one score in it is. -/
def amount : Except Malformed Nat → WithTop Nat
  | .ok v => WithTop.some v
  | .error _ => ⊤

theorem amount_sumOver (f : Node → Except Malformed Nat) (t : Nat) (ns : List Node) :
    amount (sumOver f t ns) = WithTop.some t + (ns.map fun n => amount (f n)).sum := by
  induction ns generalizing t with
  | nil => simp [sumOver, amount]
  | cons n ns ih =>
    rw [List.map_cons, List.sum_cons, sumOver]
    cases f n with
    | error e => simp [amount]
    | ok v =>
      show amount (sumOver f (t + v) ns) = WithTop.some t + (WithTop.some v + _)
      rw [ih, WithTop.coe_add, add_assoc]

theorem amount_classScore (n : Node) :
    amount n.classScore = ((n.descendants .handler).map fun h => amount h.handlerScore).sum := by
  rw [classScore, amount_sumOver]
  exact zero_add _

end Node

/-- A sum is missing if and only if one of its terms is. -/
theorem sum_eq_top_iff {l : List (WithTop Nat)} : l.sum = ⊤ ↔ ⊤ ∈ l := by
  induction l with
  | nil => simp
  | cons a l ih => rw [List.sum_cons, WithTop.add_eq_top, ih, List.mem_cons, eq_comm]

namespace ClassUnit

/-- The score of a class, as a number that may be missing. -/
def amount (u : ClassUnit) : WithTop Nat := Node.amount u.score

theorem amount_eq_top_iff {u : ClassUnit} : u.amount = ⊤ ↔ ∃ e, u.score = .error e := by
  rw [amount]
  cases u.score with
  | error e => exact ⟨fun _ => ⟨e, rfl⟩, fun _ => rfl⟩
  | ok v => simp [Node.amount]

/-- What can be seen of a unit without its tree. -/
def summary (u : ClassUnit) : String × Bool × Bool × WithTop Nat :=
  (u.qualifiedName, u.isPartial, u.generated, u.amount)

end ClassUnit

/-! ## Classes declared in parts -/

/-- A class is declared in parts if it has several units and all of them are partial. -/
def IsDivided (us : List ClassUnit) (name : String) : Prop :=
  2 ≤ (partsOf us name).length ∧ ∀ u ∈ partsOf us name, u.isPartial = true

instance (us : List ClassUnit) (name : String) : Decidable (IsDivided us name) :=
  inferInstanceAs (Decidable (_ ∧ _))

/-- Whether the unit at a place remains: of a class declared in parts only the first one does. -/
def Remains (us : List ClassUnit) (e : ClassUnit × Nat) : Prop :=
  IsDivided us e.1.qualifiedName → ∀ v ∈ us.take e.2, v.qualifiedName ≠ e.1.qualifiedName

instance (us : List ClassUnit) (e : ClassUnit × Nat) : Decidable (Remains us e) :=
  inferInstanceAs (Decidable (_ → _))

/-- What a unit that remains has become. -/
def whole (us : List ClassUnit) (u : ClassUnit) : ClassUnit :=
  if IsDivided us u.qualifiedName then unite u (partsOf us u.qualifiedName) else u

/-- A unit that stands for all parts of a class, of which `first` is the first. -/
structure StandsFor (m first : ClassUnit) (parts : List ClassUnit) : Prop where
  qualifiedName : m.qualifiedName = first.qualifiedName
  path : m.path = first.path
  language : m.language = first.language
  isPartial : m.isPartial = first.isPartial
  generated : m.generated = true ↔ ∀ p ∈ parts, p.generated = true
  amount : m.amount = (parts.map ClassUnit.amount).sum
  fails : (∃ e, m.score = .error e) ↔ ∃ p ∈ parts, ∃ e, p.score = .error e

/-- The root of a class declared in parts is no handler, so its handlers are those of the parts. -/
theorem descendants_unionRoot (u : ClassUnit) (parts : List ClassUnit) :
    (unionRoot u parts).descendants .handler = parts.flatMap fun p => p.root.descendants .handler := by
  rw [Node.descendants, Node.nodes_eq_preorder, Node.preorder_eq_cons_flatMap, List.filter_cons,
    if_neg (by simp [unionRoot]), List.filter_flatMap]
  show (parts.map (·.root)).flatMap _ = _
  rw [List.flatMap_map]
  refine List.flatMap_congr fun p _ => ?_
  rw [Node.descendants, Node.nodes_eq_preorder]

theorem amount_unite (u : ClassUnit) (parts : List ClassUnit) :
    (unite u parts).amount = (parts.map ClassUnit.amount).sum := by
  show Node.amount (unionRoot u parts).classScore = _
  rw [Node.amount_classScore, descendants_unionRoot, sum_map_flatMap]
  refine congrArg List.sum (List.map_congr_left fun p _ => ?_)
  exact (Node.amount_classScore p.root).symm

theorem standsFor_unite (u : ClassUnit) (parts : List ClassUnit) : StandsFor (unite u parts) u parts where
  qualifiedName := rfl
  path := rfl
  language := rfl
  isPartial := rfl
  generated := List.all_eq_true
  amount := amount_unite u parts
  fails := by
    rw [← ClassUnit.amount_eq_top_iff, amount_unite, sum_eq_top_iff, List.mem_map]
    simp only [ClassUnit.amount_eq_top_iff]

section Merging

variable {us rest : List ClassUnit} {done : List String} {u : ClassUnit}

/-! ## One step -/

theorem areParts_eq_decide (hu : u ∈ us) :
    areParts (partsOf us u.qualifiedName) = decide (IsDivided us u.qualifiedName) := by
  have hmem : u ∈ partsOf us u.qualifiedName := List.mem_filter.mpr ⟨hu, by simp⟩
  have hpos := List.length_pos_of_mem hmem
  have hlength : (partsOf us u.qualifiedName).length ≠ 1 ↔ 2 ≤ (partsOf us u.qualifiedName).length := by omega
  rw [Bool.eq_iff_iff, areParts, Bool.and_eq_true, bne_iff_ne, List.all_eq_true, hlength, decide_eq_true_iff]
  rfl

/-- A unit of a class that is not declared in parts is left as it is. -/
theorem mergeFrom_cons_undivided (hu : u ∈ us) (h : ¬ IsDivided us u.qualifiedName) :
    mergeFrom us done (u :: rest) = (u :: (mergeFrom us done rest).1, (mergeFrom us done rest).2) := by
  simp only [mergeFrom, areParts_eq_decide hu, decide_eq_true_iff, if_neg h]

/-- The first part of a class becomes the whole class. -/
theorem mergeFrom_cons_first (hu : u ∈ us) (h : IsDivided us u.qualifiedName)
    (hnew : ¬ done.contains u.qualifiedName = true) :
    (mergeFrom us done (u :: rest)).1 =
      unite u (partsOf us u.qualifiedName) :: (mergeFrom us (u.qualifiedName :: done) rest).1 := by
  simp only [mergeFrom, areParts_eq_decide hu, decide_eq_true_iff, if_pos h, if_neg hnew]

/-- The other parts are dropped. -/
theorem mergeFrom_cons_later (hu : u ∈ us) (h : IsDivided us u.qualifiedName)
    (hold : done.contains u.qualifiedName = true) :
    mergeFrom us done (u :: rest) = mergeFrom us done rest := by
  simp only [mergeFrom, areParts_eq_decide hu, decide_eq_true_iff, if_pos h, if_pos hold]

/-! ## The units that remain, and their places -/

theorem remains_append_iff {pre : List ClassUnit} (hus : us = pre ++ u :: rest) :
    Remains us (u, pre.length) ↔ (IsDivided us u.qualifiedName → ¬ ∃ v ∈ pre, v.qualifiedName = u.qualifiedName) := by
  have hbefore : us.take pre.length = pre := by rw [hus, List.take_left]
  simp only [Remains, hbefore, not_exists, not_and, ne_eq]

/-- The units that remain of the last ones of a list. The classes that have been put together are those declared in parts
that have a unit among the ones before. -/
theorem mergeFrom_eq {pre : List ClassUnit} (hus : us = pre ++ rest)
    (hdone : ∀ n, IsDivided us n → (done.contains n = true ↔ ∃ v ∈ pre, v.qualifiedName = n)) :
    (mergeFrom us done rest).1 = ((rest.zipIdx pre.length).filter fun e => Remains us e).map fun e => whole us e.1 := by
  induction rest generalizing done pre with
  | nil => rfl
  | cons u rest ih =>
    have hnext : us = (pre ++ [u]) ++ rest := by rw [hus, List.append_assoc, List.singleton_append]
    have hlength : pre.length + 1 = (pre ++ [u]).length := by rw [List.length_append, List.length_singleton]
    have hmem : u ∈ us := hus ▸ List.mem_append_right _ List.mem_cons_self
    -- the names before the next place are those before this one and that of the unit itself
    have hseen : ∀ n, (∃ v ∈ pre ++ [u], v.qualifiedName = n) ↔ (∃ v ∈ pre, v.qualifiedName = n) ∨ u.qualifiedName = n := by
      intro n
      simp [or_and_right, exists_or]
    rw [List.zipIdx_cons, hlength]
    by_cases hdivided : IsDivided us u.qualifiedName
    · by_cases hold : ∃ v ∈ pre, v.qualifiedName = u.qualifiedName
      · have hgone : ¬ Remains us (u, pre.length) := fun h => (remains_append_iff hus).mp h hdivided hold
        rw [mergeFrom_cons_later hmem hdivided ((hdone _ hdivided).mpr hold), List.filter_cons_of_neg (by simpa using hgone)]
        refine ih hnext fun n hn => ?_
        rw [hseen, hdone n hn, or_iff_left_of_imp]
        rintro rfl
        exact hold
      · have hremains : Remains us (u, pre.length) := (remains_append_iff hus).mpr fun _ => hold
        have hnew : ¬ done.contains u.qualifiedName = true := fun h => hold ((hdone _ hdivided).mp h)
        rw [mergeFrom_cons_first hmem hdivided hnew, List.filter_cons_of_pos (by simpa using hremains), List.map_cons, whole,
          if_pos hdivided]
        refine congrArg _ (ih hnext fun n hn => ?_)
        rw [hseen, ← hdone n hn, List.contains_cons, Bool.or_eq_true, beq_iff_eq, or_comm, @eq_comm _ n]
    · have hremains : Remains us (u, pre.length) := (remains_append_iff hus).mpr fun h => absurd h hdivided
      rw [mergeFrom_cons_undivided hmem hdivided, List.filter_cons_of_pos (by simpa using hremains), List.map_cons, whole,
        if_neg hdivided]
      refine congrArg _ (ih hnext fun n hn => ?_)
      rw [hseen, hdone n hn, or_iff_left]
      rintro rfl
      exact hdivided hn

theorem mergePartial_eq (us : List ClassUnit) :
    (mergePartial us).1 = (us.zipIdx.filter fun e => Remains us e).map fun e => whole us e.1 := by
  have hus : us = [] ++ us := rfl
  exact mergeFrom_eq hus fun n _ => by simp

/-- Without classes declared in parts nothing happens. -/
theorem mergeFrom_of_undivided (hrest : rest ⊆ us) (h : ∀ v ∈ rest, ¬ IsDivided us v.qualifiedName) :
    mergeFrom us done rest = (rest, []) := by
  induction rest with
  | nil => rfl
  | cons u rest ih =>
    obtain ⟨hu, hrest⟩ := List.cons_subset.mp hrest
    obtain ⟨hfirst, h⟩ := List.forall_mem_cons.mp h
    rw [mergeFrom_cons_undivided hu hfirst, ih hrest h]

/-- Of parts of classes that have been put together already, nothing is left. -/
theorem mergeFrom_of_done (hrest : rest ⊆ us)
    (h : ∀ v ∈ rest, IsDivided us v.qualifiedName ∧ done.contains v.qualifiedName = true) :
    mergeFrom us done rest = ([], []) := by
  induction rest with
  | nil => rfl
  | cons u rest ih =>
    obtain ⟨hu, hrest⟩ := List.cons_subset.mp hrest
    obtain ⟨⟨hdivided, hold⟩, h⟩ := List.forall_mem_cons.mp h
    rw [mergeFrom_cons_later hu hdivided hold, ih hrest h]

/-! ## The units of one name -/

theorem partsOf_partsOf (us : List ClassUnit) (name : String) : partsOf (partsOf us name) name = partsOf us name := by
  rw [partsOf, partsOf, List.filter_filter]
  simp

theorem isDivided_partsOf {name : String} : IsDivided (partsOf us name) name ↔ IsDivided us name := by
  rw [IsDivided, IsDivided, partsOf_partsOf]

theorem qualifiedName_of_mem_partsOf {name : String} (hu : u ∈ partsOf us name) : u.qualifiedName = name :=
  of_decide_eq_true (List.mem_filter.mp hu).2

/-- The units of one name are put together on their own. -/
theorem partsOf_mergePartial (us : List ClassUnit) (name : String) :
    partsOf (mergePartial us).1 name = (mergePartial (partsOf us name)).1 :=
  filter_mergePartial (fun n => n = name) us

theorem partsOf_mergePartial_of_undivided {name : String} (h : ¬ IsDivided us name) :
    partsOf (mergePartial us).1 name = partsOf us name := by
  rw [partsOf_mergePartial, mergePartial, mergeFrom_of_undivided (List.Subset.refl _)]
  intro v hv
  rwa [qualifiedName_of_mem_partsOf hv, isDivided_partsOf]

theorem partsOf_mergePartial_of_isDivided {name : String} (h : IsDivided us name) :
    ∃ u ∈ partsOf us name, partsOf (mergePartial us).1 name = [unite u (partsOf us name)] := by
  have hall : ∀ v ∈ partsOf us name, IsDivided (partsOf us name) v.qualifiedName := by
    intro v hv
    rwa [qualifiedName_of_mem_partsOf hv, isDivided_partsOf]
  rw [partsOf_mergePartial]
  cases hparts : partsOf us name with
  | nil =>
    have hmany := h.1
    rw [hparts] at hmany
    simp at hmany
  | cons u rest =>
    have hname : ∀ v ∈ u :: rest, v.qualifiedName = name := fun v hv => qualifiedName_of_mem_partsOf (hparts ▸ hv)
    have hfirst : u ∈ u :: rest := List.mem_cons_self
    have hself : partsOf (u :: rest) u.qualifiedName = u :: rest := by
      rw [hname u hfirst, ← hparts, partsOf_partsOf]
    rw [hparts] at hall
    refine ⟨u, hfirst, ?_⟩
    rw [mergePartial, mergeFrom_cons_first hfirst (hall u hfirst) (by simp), hself,
      mergeFrom_of_done (List.subset_cons_self u rest)]
    intro v hv
    have hv := List.mem_cons_of_mem u hv
    exact ⟨hall v hv, by simp [hname v hv, hname u hfirst]⟩

/-- In the result no class is declared in parts. -/
theorem not_isDivided_mergePartial (us : List ClassUnit) (name : String) : ¬ IsDivided (mergePartial us).1 name := by
  by_cases h : IsDivided us name
  · obtain ⟨u, -, heq⟩ := partsOf_mergePartial_of_isDivided h
    rw [IsDivided, heq]
    simp
  · rwa [IsDivided, partsOf_mergePartial_of_undivided h]

theorem sum_amount_partsOf (us : List ClassUnit) (name : String) :
    ((partsOf (mergePartial us).1 name).map ClassUnit.amount).sum = ((partsOf us name).map ClassUnit.amount).sum := by
  by_cases h : IsDivided us name
  · obtain ⟨u, -, heq⟩ := partsOf_mergePartial_of_isDivided h
    rw [heq, List.map_singleton, List.sum_singleton, amount_unite]
  · rw [partsOf_mergePartial_of_undivided h]

end Merging

/-! ## A list by its names -/

/-- Up to the order, a list of units is its names with their units. -/
theorem perm_flatMap_partsOf {names : List String} (hnames : names.Nodup) {us : List ClassUnit}
    (hus : ∀ u ∈ us, u.qualifiedName ∈ names) : us.Perm (names.flatMap (partsOf us)) := by
  induction names generalizing us with
  | nil => rw [List.eq_nil_iff_forall_not_mem.mpr fun u hu => List.not_mem_nil (hus u hu), List.flatMap_nil]
  | cons name names ih =>
    obtain ⟨hfresh, hnames⟩ := List.nodup_cons.mp hnames
    have hothers : ∀ u ∈ us.filter (fun u => !decide (u.qualifiedName = name)), u.qualifiedName ∈ names := by
      intro u hu
      obtain ⟨hu, hne⟩ := List.mem_filter.mp hu
      exact (List.mem_cons.mp (hus u hu)).resolve_left (by simpa using hne)
    have hsame : names.flatMap (partsOf (us.filter fun u => !decide (u.qualifiedName = name))) =
        names.flatMap (partsOf us) := by
      refine List.flatMap_congr fun n hn => partsOf_filter (t := fun m => !decide (m = name)) ?_ us
      simpa using fun h : n = name => hfresh (h ▸ hn)
    rw [List.flatMap_cons, ← hsame]
    exact (List.filter_append_perm (fun u => decide (u.qualifiedName = name)) us).symm.trans
      (List.Perm.append_left _ (ih hnames hothers))

/-- Any two lists can be laid out along the same names. -/
theorem exists_names (us vs : List ClassUnit) :
    ∃ names : List String, us.Perm (names.flatMap (partsOf us)) ∧ vs.Perm (names.flatMap (partsOf vs)) := by
  have hnames := List.nodup_dedup ((us ++ vs).map (·.qualifiedName))
  have hmem : ∀ u ∈ us ++ vs, u.qualifiedName ∈ ((us ++ vs).map (·.qualifiedName)).dedup := by
    intro u hu
    exact List.mem_dedup.mpr (List.mem_map_of_mem hu)
  refine ⟨_, perm_flatMap_partsOf hnames ?_, perm_flatMap_partsOf hnames ?_⟩
  · exact fun u hu => hmem u (List.mem_append_left _ hu)
  · exact fun u hu => hmem u (List.mem_append_right _ hu)

/-- No score is lost when parts are put together. -/
theorem sum_amount_mergePartial (us : List ClassUnit) :
    ((mergePartial us).1.map ClassUnit.amount).sum = (us.map ClassUnit.amount).sum := by
  obtain ⟨names, hmerged, hus⟩ := exists_names (mergePartial us).1 us
  rw [(hmerged.map _).sum_eq, (hus.map _).sum_eq, sum_map_flatMap, sum_map_flatMap]
  exact congrArg List.sum (List.map_congr_left fun n _ => sum_amount_partsOf us n)

/-- **What putting parts together keeps.** Of a class declared in parts the first unit remains and stands for all of them,
with the sum of their scores; every other unit stays as it is, and all of them keep their order. The scores have the
same sum as before, for every name and in total, and nothing is left to put together. -/
theorem mergePartial_conserves (us : List ClassUnit) :
    (mergePartial us).1 = (us.zipIdx.filter fun e => Remains us e).map (fun e => whole us e.1) ∧
      (∀ u, IsDivided us u.qualifiedName → StandsFor (whole us u) u (partsOf us u.qualifiedName)) ∧
      (∀ u, ¬ IsDivided us u.qualifiedName → whole us u = u) ∧
      (∀ name, ((partsOf (mergePartial us).1 name).map ClassUnit.amount).sum =
        ((partsOf us name).map ClassUnit.amount).sum) ∧
      ((mergePartial us).1.map ClassUnit.amount).sum = (us.map ClassUnit.amount).sum ∧
      mergePartial (mergePartial us).1 = ((mergePartial us).1, []) := by
  refine ⟨mergePartial_eq us, fun u h => ?_, fun u h => if_neg h, sum_amount_partsOf us, sum_amount_mergePartial us, ?_⟩
  · rw [whole, if_pos h]
    exact standsFor_unite u _
  · exact mergeFrom_of_undivided (List.Subset.refl _) fun v _ => not_isDivided_mergePartial us v.qualifiedName

/-- A part of a class with one handler. -/
def catchingPart (generated : Bool) : ClassUnit :=
  { catchingUnit "p.A" true with generated := generated, isPartial := true }

/-- Two parts of a class, and another class between them. -/
def scatteredParts : List ClassUnit := [catchingPart true, catchingUnit "p.B" true, catchingPart false]

/-- Its two parts become one unit, which has the scores of both and is not generated, and no score is lost. -/
theorem scatteredParts_conserved :
    IsDivided scatteredParts "p.A" ∧
      StandsFor (whole scatteredParts (catchingPart true)) (catchingPart true) [catchingPart true, catchingPart false] ∧
      ((mergePartial scatteredParts).1.map ClassUnit.amount).sum = WithTop.some 3 := by
  obtain ⟨_, hparts, _, _, hsum, _⟩ := mergePartial_conserves scatteredParts
  exact ⟨by decide, hparts (catchingPart true) (by decide), hsum.trans (by decide +kernel)⟩

/-! ## The order of the units -/

section Order

variable {us vs : List ClassUnit}

theorem partsOf_perm (h : us.Perm vs) (name : String) : (partsOf us name).Perm (partsOf vs name) := h.filter _

theorem isDivided_congr (h : us.Perm vs) (name : String) : IsDivided us name ↔ IsDivided vs name := by
  have hparts := partsOf_perm h name
  simp only [IsDivided, hparts.length_eq, hparts.mem_iff]

/-- Parts in another order give a class of which the same can be seen, whichever of them comes first. -/
theorem summary_unite {u v : ClassUnit} {parts parts' : List ClassUnit} (h : parts.Perm parts')
    (hname : u.qualifiedName = v.qualifiedName) (hpartial : u.isPartial = v.isPartial) :
    (unite u parts).summary = (unite v parts').summary := by
  have hgenerated : parts.all (·.generated) = parts'.all (·.generated) := h.all_eq
  have hamount : (unite u parts).amount = (unite v parts').amount := by
    rw [amount_unite, amount_unite, (h.map _).sum_eq]
  simp only [ClassUnit.summary, hamount]
  simp only [unite, hname, hpartial, hgenerated]

theorem summaries_partsOf_perm (h : us.Perm vs) (name : String) :
    ((partsOf (mergePartial us).1 name).map ClassUnit.summary).Perm
      ((partsOf (mergePartial vs).1 name).map ClassUnit.summary) := by
  have hparts := partsOf_perm h name
  by_cases hus : IsDivided us name
  · have hvs : IsDivided vs name := (isDivided_congr h name).mp hus
    obtain ⟨u, hu, heq⟩ := partsOf_mergePartial_of_isDivided hus
    obtain ⟨v, hv, heq'⟩ := partsOf_mergePartial_of_isDivided hvs
    have hname : u.qualifiedName = v.qualifiedName := by
      rw [qualifiedName_of_mem_partsOf hu, qualifiedName_of_mem_partsOf hv]
    have hpartial : u.isPartial = v.isPartial := by rw [hus.2 u hu, hvs.2 v hv]
    rw [heq, heq', List.map_singleton, List.map_singleton, summary_unite hparts hname hpartial]
  · have hvs : ¬ IsDivided vs name := fun h' => hus ((isDivided_congr h name).mpr h')
    rw [partsOf_mergePartial_of_undivided hus, partsOf_mergePartial_of_undivided hvs]
    exact hparts.map _

/-- **The order of the units does not matter.** Of the same units in two orders the same number remains, with the same names,
flags and scores. -/
theorem mergePartial_order_free (h : us.Perm vs) :
    ((mergePartial us).1.map ClassUnit.summary).Perm ((mergePartial vs).1.map ClassUnit.summary) ∧
      (mergePartial us).1.length = (mergePartial vs).1.length := by
  have hperm : ((mergePartial us).1.map ClassUnit.summary).Perm ((mergePartial vs).1.map ClassUnit.summary) := by
    obtain ⟨names, hleft, hright⟩ := exists_names (mergePartial us).1 (mergePartial vs).1
    have hleft := hleft.map ClassUnit.summary
    have hright := hright.map ClassUnit.summary
    rw [List.map_flatMap] at hleft hright
    exact hleft.trans ((List.Perm.flatMap_left _ fun name _ => summaries_partsOf_perm h name).trans hright.symm)
  refine ⟨hperm, ?_⟩
  simpa using hperm.length_eq

/-- The two parts of a class and the class between them, the other way round and from the middle. -/
theorem scatteredParts_order_free :
    scatteredParts.Perm [catchingUnit "p.B" true, catchingPart false, catchingPart true] ∧
      ((mergePartial scatteredParts).1.map ClassUnit.summary).Perm
        ((mergePartial [catchingUnit "p.B" true, catchingPart false, catchingPart true]).1.map ClassUnit.summary) ∧
      (mergePartial scatteredParts).1.map ClassUnit.summary =
        [("p.A", true, false, WithTop.some 2), ("p.B", false, false, WithTop.some 1)] := by
  have hperm : scatteredParts.Perm [catchingUnit "p.B" true, catchingPart false, catchingPart true] :=
    (List.Perm.swap ..).trans (.cons _ (List.Perm.swap ..))
  exact ⟨hperm, (mergePartial_order_free hperm).1, by decide +kernel⟩

end Order

end HandlerComplexity
