import HandlerComplexity.Proofs.Accounting

/-!
# Classes in two groups

Classes of different names do not meet: not when parts are put together, not when they are recorded, and not in the
report. So a list of classes that is put together from two lists without a name in common is treated as the two lists
are.

* `Splits`: a list that is put together from two others.
* `Splits.mergePartial`, `Splits.verdicts`: parts of classes, and what is recorded.
* `Splits.mergeSort_key`, `Splits.classMeasures`: failures and measures of a report.
-/

namespace HandlerComplexity

/-- A list that is put together from two others, each of them in its order; `p` holds of what comes from the first. -/
structure Splits {α : Type} (p : α → Bool) (l l₁ l₂ : List α) : Prop where
  left : l.filter p = l₁
  right : l.filter (!p ·) = l₂

namespace Splits

section Lists

variable {α β : Type} {p : α → Bool} {l l₁ l₂ : List α}

theorem perm (h : Splits p l l₁ l₂) : l.Perm (l₁ ++ l₂) := by
  rw [← h.left, ← h.right]
  exact (List.filter_append_perm p l).symm

theorem of_mem_left (h : Splits p l l₁ l₂) {a : α} (ha : a ∈ l₁) : a ∈ l ∧ p a = true := by
  rw [← h.left] at ha
  exact List.mem_filter.mp ha

theorem length (h : Splits p l l₁ l₂) : l.length = l₁.length + l₂.length := by
  rw [h.perm.length_eq, List.length_append]

theorem countP (h : Splits p l l₁ l₂) (q : α → Bool) : l.countP q = l₁.countP q + l₂.countP q := by
  rw [h.perm.countP_eq, List.countP_append]

/-- The other way round. -/
theorem symm (h : Splits p l l₁ l₂) : Splits (!p ·) l l₂ l₁ := by
  refine ⟨h.right, ?_⟩
  simp only [Bool.not_not]
  exact h.left

theorem filter (h : Splits p l l₁ l₂) (q : α → Bool) : Splits p (l.filter q) (l₁.filter q) (l₂.filter q) := by
  refine ⟨?_, ?_⟩
  · rw [← h.left, List.filter_comm]
  · rw [← h.right, List.filter_comm]

theorem map (h : Splits p l l₁ l₂) {f : α → β} {q : β → Bool} (hq : ∀ a, q (f a) = p a) :
    Splits q (l.map f) (l₁.map f) (l₂.map f) := by
  refine ⟨?_, ?_⟩
  · rw [← h.left, List.filter_map]
    exact congrArg _ (List.filter_congr fun a _ => hq a)
  · rw [← h.right, List.filter_map]
    exact congrArg _ (List.filter_congr fun a _ => congrArg _ (hq a))

/-- What is looked for is in the first list. -/
theorem find? (h : Splits p l l₁ l₂) {q : α → Bool} (hq : ∀ a, q a = true → p a = true) : l.find? q = l₁.find? q := by
  rw [← h.left, List.find?_filter]
  refine congrArg (l.find? ·) (funext fun a => ?_)
  cases hqa : q a with
  | true => simp [hq a hqa]
  | false => simp

/-- Elements that pass the one test give only elements that pass the other, and the rest give none. -/
theorem filter_flatMap_of {f f₁ : α → List β} {q : β → Bool}
    (hpass : ∀ a ∈ l, p a = true → f a = f₁ a ∧ ∀ b ∈ f₁ a, q b = true)
    (hfail : ∀ a ∈ l, p a = false → ∀ b ∈ f a, q b = false) : (l.flatMap f).filter q = (l.filter p).flatMap f₁ := by
  induction l with
  | nil => rfl
  | cons a l ih =>
    rw [List.flatMap_cons, List.filter_append,
      ih (fun b hb => hpass b (List.mem_cons_of_mem _ hb)) fun b hb => hfail b (List.mem_cons_of_mem _ hb)]
    cases hp : p a with
    | true =>
      obtain ⟨heq, hall⟩ := hpass a List.mem_cons_self hp
      rw [List.filter_cons_of_pos hp, List.flatMap_cons, heq, List.filter_eq_self.mpr hall]
    | false =>
      have hnone := hfail a List.mem_cons_self hp
      rw [List.filter_cons_of_neg (by simp [hp]), List.filter_eq_nil_iff.mpr fun b hb => by simp [hnone b hb],
        List.nil_append]

/-- Each element of a group gives elements of that group. -/
theorem flatMap (h : Splits p l l₁ l₂) {f f₁ f₂ : α → List β} {q : β → Bool}
    (h₁ : ∀ a ∈ l₁, f a = f₁ a ∧ ∀ b ∈ f₁ a, q b = true) (h₂ : ∀ a ∈ l₂, f a = f₂ a ∧ ∀ b ∈ f₂ a, q b = false) :
    Splits q (l.flatMap f) (l₁.flatMap f₁) (l₂.flatMap f₂) := by
  have hleft : ∀ a ∈ l, p a = true → f a = f₁ a ∧ ∀ b ∈ f₁ a, q b = true := by
    intro a ha hp
    exact h₁ a (h.left ▸ List.mem_filter.mpr ⟨ha, hp⟩)
  have hright : ∀ a ∈ l, p a = false → f a = f₂ a ∧ ∀ b ∈ f₂ a, q b = false := by
    intro a ha hp
    exact h₂ a (h.right ▸ List.mem_filter.mpr ⟨ha, by simp [hp]⟩)
  refine ⟨?_, ?_⟩
  · rw [← h.left]
    refine filter_flatMap_of hleft fun a ha hp b hb => ?_
    rw [(hright a ha hp).1] at hb
    exact (hright a ha hp).2 b hb
  · rw [← h.right]
    refine filter_flatMap_of (fun a ha hp => ?_) fun a ha hp b hb => ?_
    · obtain ⟨heq, hall⟩ := hright a ha (by simpa using hp)
      exact ⟨heq, fun b hb => by simp [hall b hb]⟩
    · obtain ⟨heq, hall⟩ := hleft a ha (by simpa using hp)
      rw [heq] at hb
      simp [hall b hb]

/-- Sorting by a text that decides about the group can be done in each group first. -/
theorem mergeSort_key {key : α → String} {t : String → Bool} (h : Splits (fun a => t (key a)) l l₁ l₂) :
    l.mergeSort (keyLe key) = (l₁.mergeSort (keyLe key) ++ l₂.mergeSort (keyLe key)).mergeSort (keyLe key) := by
  refine eq_of_filter_key (pairwise_mergeSort_key _) (pairwise_mergeSort_key _) fun k => ?_
  have hgroup : ∀ q : Bool → Bool, l.filter (fun a => decide (key a = k) && q (t (key a))) =
      l.filter fun a => decide (key a = k) && q (t k) := by
    intro q
    refine List.filter_congr fun a _ => ?_
    by_cases hk : key a = k
    · rw [hk]
    · simp [hk]
  have hleft := hgroup id
  have hright := hgroup not
  simp only [id_eq] at hleft
  simp only [filter_mergeSort_key, List.filter_append]
  rw [← h.left, ← h.right, List.filter_filter, List.filter_filter, hleft, hright]
  cases t k with
  | true => simp
  | false => simp

end Lists

end Splits

/-! ## Parts of classes -/

theorem qualifiedName_unite (u : ClassUnit) (parts : List ClassUnit) :
    (unite u parts).qualifiedName = u.qualifiedName := rfl

theorem partsOf_filter {t : String → Bool} {name : String} (h : t name = true) (us : List ClassUnit) :
    partsOf (us.filter (fun u => t u.qualifiedName)) name = partsOf us name := by
  rw [partsOf, partsOf, List.filter_filter]
  refine List.filter_congr fun u _ => ?_
  by_cases hn : u.qualifiedName = name
  · simp [hn, h]
  · simp [hn]

/-- Putting together the parts of the classes whose names pass a test. The induction is on the units still to be gone
through; of the classes already put together only those that pass the test count. -/
theorem filter_mergeFrom (t : String → Bool) (all : List ClassUnit) {done done' : List String}
    (hdone : ∀ n, t n = true → done.contains n = done'.contains n) (us : List ClassUnit) :
    (mergeFrom all done us).1.filter (fun u => t u.qualifiedName) =
      (mergeFrom (all.filter (fun u => t u.qualifiedName)) done' (us.filter (fun u => t u.qualifiedName))).1 := by
  induction us generalizing done done' with
  | nil => rfl
  | cons u us ih =>
    cases ht : t u.qualifiedName with
    | true =>
      have hcons : ∀ n, t n = true → (u.qualifiedName :: done).contains n = (u.qualifiedName :: done').contains n := by
        intro n hn
        simp only [List.contains_cons, hdone n hn]
      rw [List.filter_cons, if_pos ht]
      simp only [mergeFrom, partsOf_filter ht, hdone _ ht]
      split_ifs
      · exact ih hdone
      · rw [List.filter_cons, qualifiedName_unite, if_pos ht, ih hcons]
      · rw [List.filter_cons, if_pos ht, ih hdone]
    | false =>
      have hno : ¬ t u.qualifiedName = true := by simp [ht]
      have hother : ∀ n, t n = true → (u.qualifiedName :: done).contains n = done'.contains n := by
        intro n hn
        have hne : n ≠ u.qualifiedName := fun h => hno (h ▸ hn)
        rw [List.contains_cons, hdone n hn, beq_false_of_ne hne, Bool.false_or]
      rw [List.filter_cons, if_neg hno]
      simp only [mergeFrom]
      split_ifs
      · exact ih hdone
      · rw [List.filter_cons, qualifiedName_unite, if_neg hno, ih hother]
      · rw [List.filter_cons, if_neg hno, ih hdone]

theorem filter_mergePartial (t : String → Bool) (us : List ClassUnit) :
    (mergePartial us).1.filter (fun u => t u.qualifiedName) =
      (mergePartial (us.filter fun u => t u.qualifiedName)).1 :=
  filter_mergeFrom t us (fun _ _ => rfl) us

/-! ## Recording -/

/-- The verdicts on the classes whose names pass a test. -/
theorem filter_verdicts (t : String → Bool) {taken taken' : String → Bool}
    (htaken : ∀ n, t n = true → taken n = taken' n) (us : List ClassUnit) :
    (verdicts taken us).filter (fun v => t v.1.qualifiedName) =
      verdicts taken' (us.filter fun u => t u.qualifiedName) := by
  induction us generalizing taken taken' with
  | nil => rfl
  | cons u us ih =>
    rw [verdicts]
    cases ht : t u.qualifiedName with
    | true =>
      have hmark : ∀ n, t n = true → mark taken u n = mark taken' u n := fun n hn => by rw [mark, mark, htaken n hn]
      rw [List.filter_cons, if_pos ht, List.filter_cons, if_pos ht, verdicts, htaken _ ht, ih hmark]
    | false =>
      have hno : ¬ t u.qualifiedName = true := by simp [ht]
      have hmark : ∀ n, t n = true → mark taken u n = taken' n := by
        intro n hn
        rw [mark_of_ne fun h => hno (h ▸ hn), htaken n hn]
      rw [List.filter_cons, if_neg hno, List.filter_cons, if_neg hno, ih hmark]

namespace Splits

section Units

variable {t : String → Bool} {us us₁ us₂ : List ClassUnit}

theorem mergePartial (h : Splits (fun u => t u.qualifiedName) us us₁ us₂) :
    Splits (fun u => t u.qualifiedName) (mergePartial us).1 (mergePartial us₁).1 (mergePartial us₂).1 := by
  refine ⟨?_, ?_⟩
  · rw [filter_mergePartial, h.left]
  · rw [filter_mergePartial (!t ·), ← h.right]

theorem verdicts (h : Splits (fun u => t u.qualifiedName) us us₁ us₂) (taken : String → Bool) :
    Splits (fun v => t v.1.qualifiedName) (verdicts taken us) (verdicts taken us₁) (verdicts taken us₂) := by
  refine ⟨?_, ?_⟩
  · rw [filter_verdicts t (fun _ _ => rfl), h.left]
  · rw [filter_verdicts (!t ·) (fun _ _ => rfl), ← h.right]

/-- The failures of a collection are those of the two groups. -/
theorem troubles (h : Splits (fun u => t u.qualifiedName) us us₁ us₂) (taken : String → Bool) :
    Splits (fun e => t e.target) ((refusedOf (HandlerComplexity.verdicts taken us)).map ClassUnit.trouble)
      ((refusedOf (HandlerComplexity.verdicts taken us₁)).map ClassUnit.trouble)
      ((refusedOf (HandlerComplexity.verdicts taken us₂)).map ClassUnit.trouble) := by
  refine map (p := (fun u => t u.qualifiedName)) ?_ fun _ => rfl
  exact ((h.verdicts taken).filter _).map fun _ => rfl

theorem originOf (h : Splits (fun u => t u.qualifiedName) us us₁ us₂) {name : String} (hname : t name = true) :
    originOf us name = originOf us₁ name := by
  refine h.find? fun u hu => ?_
  rwa [of_decide_eq_true hu]

theorem winner (h : Splits (fun u => t u.qualifiedName) us us₁ us₂) {name : String} (hname : t name = true)
    (accepts : ClassUnit → Bool) : winner accepts us name = winner accepts us₁ name := by
  refine h.find? fun u hu => ?_
  simp only [Bool.and_eq_true, decide_eq_true_eq] at hu
  rwa [hu.2.1]

end Units

end Splits

/-! ## Measures -/

/-- The measures of a store filled from those units that are accepted. -/
def measuresOf (accepts : ClassUnit → Bool) (units : List ClassUnit) : List ClassMeasure :=
  classMeasures units (Store.empty.run (units.filter accepts))

theorem measuresOf_increasing (accepts : ClassUnit → Bool) (units : List ClassUnit) :
    (measuresOf accepts units).Pairwise fun a b => a.name < b.name :=
  classMeasures_increasing units (Store.Reachable.empty.run _).sound

/-- Measures in the order of the names are determined by what is among them. -/
theorem eq_of_increasing {ms ms' : List ClassMeasure} (h : ms.Pairwise fun a b => a.name < b.name)
    (h' : ms'.Pairwise fun a b => a.name < b.name) (hmem : ∀ m, m ∈ ms ↔ m ∈ ms') : ms = ms' := by
  have hne {a b : ClassMeasure} (hab : a.name < b.name) : a ≠ b := fun heq => String.lt_irrefl _ (heq ▸ hab)
  have hperm := (List.perm_ext_iff_of_nodup (h.imp hne) (h'.imp hne)).mpr hmem
  exact hperm.eq_of_pairwise (fun a b _ _ hab hba => absurd hab (String.lt_asymm hba)) h h'

/-- The measures of the classes whose names pass a test. -/
theorem filter_measuresOf {t : String → Bool} {us us₁ us₂ : List ClassUnit}
    (h : Splits (fun u => t u.qualifiedName) us us₁ us₂) (accepts : ClassUnit → Bool) :
    (measuresOf accepts us).filter (fun m => t m.name) = measuresOf accepts us₁ := by
  refine eq_of_increasing ((measuresOf_increasing accepts us).filter _) (measuresOf_increasing accepts us₁) fun m => ?_
  rw [List.mem_filter, measuresOf, measuresOf, mem_classMeasures_run, mem_classMeasures_run]
  constructor
  · rintro ⟨⟨o, r, ho, hr, hm⟩, hname⟩
    exact ⟨o, r, h.originOf hname ▸ ho, h.winner hname accepts ▸ hr, hm⟩
  · rintro ⟨o, r, ho, hr, hm⟩
    obtain ⟨hmem, hname⟩ := of_originOf ho
    have hname : t m.name = true := hname ▸ (h.of_mem_left hmem).2
    exact ⟨⟨o, r, (h.originOf hname).symm ▸ ho, (h.winner hname accepts).symm ▸ hr, hm⟩, hname⟩

/-- The measures of classes in two groups. -/
theorem Splits.measuresOf {t : String → Bool} {us us₁ us₂ : List ClassUnit}
    (h : Splits (fun u => t u.qualifiedName) us us₁ us₂) (accepts : ClassUnit → Bool) :
    Splits (fun m => t m.name) (measuresOf accepts us) (measuresOf accepts us₁) (measuresOf accepts us₂) :=
  ⟨filter_measuresOf h accepts, filter_measuresOf (t := (!t ·)) h.symm accepts⟩

theorem measuresOf_eq_mergeSort {t : String → Bool} {us us₁ us₂ : List ClassUnit}
    (h : Splits (fun u => t u.qualifiedName) us us₁ us₂) (accepts : ClassUnit → Bool) :
    measuresOf accepts us =
      (measuresOf accepts us₁ ++ measuresOf accepts us₂).mergeSort (keyLe ClassMeasure.name) := by
  have hsorted : ∀ us, (measuresOf accepts us).mergeSort (keyLe ClassMeasure.name) = measuresOf accepts us := by
    intro us
    refine List.mergeSort_of_pairwise ((measuresOf_increasing accepts us).imp fun hlt => ?_)
    exact decide_eq_true (String.not_lt.mp (String.lt_asymm hlt))
  rw [← hsorted us, (h.measuresOf accepts).mergeSort_key, hsorted, hsorted]

end HandlerComplexity
