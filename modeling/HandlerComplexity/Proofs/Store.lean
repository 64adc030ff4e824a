import HandlerComplexity.Store
import Mathlib.Data.List.Nodup

/-!
# Laws of the store

* `Store.Reachable`: the stores that come about by recording into the empty one.
* `Store.Sound`: each name occurs once, with one measure. Every reachable store is sound (`Reachable.sound`).
* `Store.extend`: a sound store with a new name behind the others; `insert_eq` and `record_eq` say that recording is
  this, or is refused.
-/

namespace HandlerComplexity

theorem lookup_of_mem {α β : Type} [BEq α] [LawfulBEq α] {l : List (α × β)} (hn : (l.map (·.1)).Nodup) {e : α × β}
    (he : e ∈ l) : l.lookup e.1 = some e.2 := by
  induction l with
  | nil => simp at he
  | cons d l ih =>
    rw [List.map_cons, List.nodup_cons] at hn
    rw [List.lookup_cons]
    rcases List.mem_cons.mp he with rfl | he
    · simp
    · have hne : e.1 ≠ d.1 := fun h => hn.1 (h ▸ List.mem_map_of_mem he)
      rw [beq_eq_false_iff_ne.mpr hne]
      exact ih hn.2 he

/-! ## Scores as measures -/

theorem Binary64.isNegative_normalize (m : Nat) (e : Int) : (normalize false m e).isNegative = false := by
  unfold normalize
  split
  split <;> rfl

theorem Binary64.isNegative_ofNat (n : Nat) : (ofNat n).isNegative = false := by
  unfold ofNat roundRatio
  split_ifs
  · rfl
  · exact isNegative_normalize _ _

/-- A score is never refused as a measure. -/
theorem Measure.make_ofScore (metric : Metric) (n : Nat) :
    Measure.make metric (.ofScore n) = .ok ⟨metric, .ofScore n⟩ := by
  have h : (Value.ofScore n).isNegative = false := Binary64.isNegative_ofNat n
  rw [Measure.make, h]
  rfl

namespace Store

/-! ## Reachable and sound stores -/

/-- A store that comes about by recording into the empty store. A refused measure leaves the store as it was, so only
what is recorded counts. -/
inductive Reachable : Store → Prop
  | empty : Reachable .empty
  | record {s s' : Store} {name : String} {metric : Metric} {value : Value} :
      Reachable s → s.record name metric value = .ok s' → Reachable s'

/-- The names in a store, in the order in which they were recorded. -/
def names (s : Store) : List String := s.entries.map (·.1)

/-- Each name is there once, with one measure. -/
structure Sound (s : Store) : Prop where
  nodup : s.names.Nodup
  single : ∀ e ∈ s.entries, ∃ m, e.2 = [m]

/-- The store with a name and its measure behind all others. -/
def extend (s : Store) (name : String) (measure : Measure) : Store := ⟨s.entries ++ [(name, [measure])]⟩

theorem contains_iff {s : Store} {name : String} : s.contains name = true ↔ name ∈ s.names := by
  simp [contains, names]

theorem contains_eq_false_iff {s : Store} {name : String} : s.contains name = false ↔ name ∉ s.names := by
  rw [← contains_iff, Bool.not_eq_true]

@[simp] theorem names_extend (s : Store) (name : String) (m : Measure) :
    (s.extend name m).names = s.names ++ [name] := by
  simp [names, extend]

@[simp] theorem contains_extend (s : Store) (name : String) (m : Measure) (x : String) :
    (s.extend name m).contains x = (s.contains x || x = name) := by
  simp [contains, extend, eq_comm]

theorem lookup_eq_none {s : Store} {name : String} (h : s.contains name = false) :
    s.entries.lookup name = none := by
  rw [List.lookup_eq_none_iff]
  intro e he
  rw [bne_iff_ne]
  rintro rfl
  exact contains_eq_false_iff.mp h (List.mem_map_of_mem he)

theorem exists_lookup {s : Store} {name : String} (h : s.contains name = true) :
    ∃ ms, s.entries.lookup name = some ms := by
  obtain ⟨e, he, hn⟩ := List.mem_map.mp (contains_iff.mp h)
  exact Option.isSome_iff_exists.mp (List.lookup_isSome_iff.mpr ⟨e, he, by simp [hn]⟩)

theorem measuresFor_of_not_contains {s : Store} {name : String} (h : s.contains name = false) :
    s.measuresFor name = [] := by
  rw [measuresFor, lookup_eq_none h]
  rfl

theorem append_of_not_mem {name : String} (m : Measure) {es : List (String × List Measure)}
    (h : name ∉ es.map (·.1)) : append name m es = es ++ [(name, [m])] := by
  induction es with
  | nil => rfl
  | cons e es ih =>
    obtain ⟨n, ms⟩ := e
    rw [List.map_cons, List.mem_cons, not_or] at h
    rw [append, if_neg (Ne.symm h.1), ih h.2]
    rfl

theorem Sound.empty : Sound .empty := ⟨List.nodup_nil, fun _ he => absurd he (List.not_mem_nil)⟩

theorem Sound.extend {s : Store} (hs : s.Sound) {name : String} (m : Measure) (h : s.contains name = false) :
    (s.extend name m).Sound := by
  refine ⟨?_, ?_⟩
  · rw [names_extend]
    rw [← List.concat_eq_append]
    exact (List.nodup_concat _ _).mpr ⟨contains_eq_false_iff.mp h, hs.nodup⟩
  · intro e he
    rcases List.mem_append.mp he with he | he
    · exact hs.single e he
    · exact ⟨m, by rw [List.mem_singleton.mp he]⟩

/-- A name of a sound store has a measure, and that is of the only metric there is. -/
theorem Sound.any_metric {s : Store} (hs : s.Sound) {name : String} (h : s.contains name = true) (metric : Metric) :
    (s.measuresFor name).any (·.metric = metric) = true := by
  obtain ⟨ms, hms⟩ := exists_lookup h
  obtain ⟨l₁, l₂, hl, -⟩ := List.lookup_eq_some_iff.mp hms
  obtain ⟨m, rfl⟩ := hs.single (name, ms) (by rw [hl]; simp)
  rw [measuresFor, hms]
  cases metric
  cases m.metric
  simp

/-! ## Recording -/

/-- Recording into a sound store puts a new name behind the others and refuses an old one. -/
theorem insert_eq {s : Store} (hs : s.Sound) (name : String) (m : Measure) :
    s.insert name m =
      if s.contains name then .error (.duplicate m.metric name) else .ok (s.extend name m) := by
  cases h : s.contains name with
  | true => rw [insert, hs.any_metric h]; rfl
  | false =>
    rw [insert, measuresFor_of_not_contains h, append_of_not_mem m (contains_eq_false_iff.mp h)]
    rfl

theorem record_eq {s : Store} (hs : s.Sound) (name : String) (metric : Metric) (value : Value) :
    s.record name metric value =
      if value.isNegative then .error (.negative metric value)
      else if s.contains name then .error (.duplicate metric name)
      else .ok (s.extend name ⟨metric, value⟩) := by
  unfold record Measure.make
  cases h : value.isNegative with
  | true => rfl
  | false => exact insert_eq hs name _

/-- Whatever is recorded is recorded under a new name. -/
theorem record_ok {s s' : Store} (hs : s.Sound) {name : String} {metric : Metric} {value : Value}
    (h : s.record name metric value = .ok s') :
    value.isNegative = false ∧ s.contains name = false ∧ s' = s.extend name ⟨metric, value⟩ := by
  rw [record_eq hs] at h
  split_ifs at h with hv hc
  simp only [Except.ok.injEq] at h
  exact ⟨by simpa using hv, by simpa using hc, h.symm⟩

theorem Reachable.sound {s : Store} (h : s.Reachable) : s.Sound := by
  induction h with
  | empty => exact .empty
  | record _ hrec ih =>
    obtain ⟨-, hc, rfl⟩ := record_ok ih hrec
    exact ih.extend _ hc

theorem Reachable.extend {s : Store} (h : s.Reachable) {name : String} (metric : Metric) (n : Nat)
    (hc : s.contains name = false) : (s.extend name ⟨metric, .ofScore n⟩).Reachable := by
  have hv : (Value.ofScore n).isNegative = false := Binary64.isNegative_ofNat n
  have hrec : s.record name metric (.ofScore n) = .ok (s.extend name ⟨metric, .ofScore n⟩) := by
    rw [record_eq h.sound, hv, hc]
    rfl
  exact .record h hrec

end Store

end HandlerComplexity
