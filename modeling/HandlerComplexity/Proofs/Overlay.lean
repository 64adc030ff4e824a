import HandlerComplexity.ConfigFile
import HandlerComplexity.Proofs.Keys
import Mathlib.Data.List.Basic

/-!
# Documents laid over one another

A text is the same key as itself and as nothing else, so that looking up a text in a mapping is looking up a name.
What is found under a key in one mapping laid over another is what the upper one has there, laid over what the lower
one has, provided that the upper one has the key only once. Every document that is read from a text has each of its
keys once, in all of its mappings.

* `Document.get?_overlay`: the lookup of a key in two mappings.
* `Document.overlay_eq`: the entries of one mapping laid over another, in their order.
* `Document.EachKeyOnce`: no mapping in a document repeats a key.
* `Config.eachKeyOnce_of_readDocument`: documents that are read.
-/

namespace HandlerComplexity

namespace Scalar

@[simp]
theorem same_text_iff {k : Scalar} {s : String} : k.same (.text s) = true ↔ k = .text s := by
  cases k <;> simp [same, toInt?]

@[simp]
theorem text_same_iff {k : Scalar} {s : String} : (text s).same k = true ↔ k = .text s := by
  cases k <;> simp [same, toInt?, eq_comm]

end Scalar

namespace Document

/-! ## Lookups -/

theorem get?_text_cons (s : String) (k : Scalar) (v : Document) (es : Entries) :
    get? (.text s) ((k, v) :: es) = if k = .text s then some v else get? (.text s) es := by
  simp only [get?, Scalar.same_text_iff]

/-- Keys that are the same find the same. -/
theorem get?_congr {k l : Scalar} (h : k.same l = true) (es : Entries) : get? k es = get? l es := by
  induction es with
  | nil => rfl
  | cons e es ih => rw [get?, get?, Scalar.same_comm e.1 k, Scalar.same_congr h, Scalar.same_comm l e.1, ih]

theorem get?_put (key k : Scalar) (v : Document) (es : Entries) :
    get? key (put k v es) = if k.same key then some v else get? key es := by
  induction es with
  | nil => rfl
  | cons e es ih =>
    obtain ⟨l, w⟩ := e
    rw [put]
    split_ifs with hsame hk hk
    · rw [get?, Scalar.same_congr hsame key, if_pos hk]
    · rw [get?, get?, Scalar.same_congr hsame key, if_neg hk, if_neg hk]
    · have hl : ¬ l.same key = true := fun hl => hsame (Scalar.same_trans hl (Scalar.same_comm k key ▸ hk))
      rw [get?, if_neg hl, ih, if_pos hk]
    · rw [get?, get?, ih, if_neg hk]

/-- No key comes again later. -/
def KeysOnce (es : Entries) : Prop := es.Pairwise fun d e => d.1.same e.1 = false

theorem get?_eq_none_iff {key : Scalar} {es : Entries} : get? key es = none ↔ ∀ e ∈ es, e.1.same key = false := by
  induction es with
  | nil => simp [get?]
  | cons e es ih => rw [get?, List.forall_mem_cons, ← ih]; cases e.1.same key <;> simp

theorem get?_eq_none_of_once {key k : Scalar} {v : Document} {es : Entries} (h : KeysOnce ((k, v) :: es))
    (hk : k.same key = true) : get? key es = none := by
  refine get?_eq_none_iff.mpr fun e he => ?_
  have hne := (List.pairwise_cons.mp h).1 e he
  rwa [Scalar.same_congr hk, Scalar.same_comm] at hne

/-- **Lookup in two layers.** A key that the upper mapping has once is looked up there, and what is found is laid over
what the lower mapping has; a key that it does not have is looked up in the lower one. -/
theorem get?_overlay {layer : Entries} (h : KeysOnce layer) (key : Scalar) (base : Entries) :
    get? key (overlay base layer) =
      match get? key layer with
      | none => get? key base
      | some v => some (overlayValue (get? key base) v) := by
  induction layer generalizing base with
  | nil => rw [overlay]; rfl
  | cons e layer ih =>
    obtain ⟨k, v⟩ := e
    rw [overlay, ih (List.pairwise_cons.mp h).2, get?_put, get?]
    by_cases hk : k.same key = true
    · rw [get?_eq_none_of_once h hk, if_pos hk, if_pos hk, get?_congr hk]
    · rw [if_neg hk, if_neg hk]

theorem overlayValue_of_not_map {base : Option Document} {d : Document} (h : ∀ es, d ≠ .map es) :
    overlayValue base d = d := by
  rw [overlayValue]
  exact h

/-- A mapping takes the place of anything but a mapping. -/
theorem overlayValue_of_base {base : Option Document} (h : ∀ es, base ≠ some (.map es)) (d : Document) :
    overlayValue base d = d := by
  by_cases hd : ∃ layer, d = .map layer
  · obtain ⟨layer, rfl⟩ := hd
    rw [overlayValue]
    exact h
  · exact overlayValue_of_not_map fun es hes => hd ⟨es, hes⟩

/-! ## Mappings without repeated keys -/

theorem mem_put {k : Scalar} {v : Document} {es : Entries} {e : Scalar × Document} (h : e ∈ put k v es) :
    e ∈ es ∨ e.2 = v ∧ (e.1 = k ∨ ∃ d ∈ es, d.1 = e.1) := by
  induction es with
  | nil =>
    obtain rfl := List.mem_singleton.mp h
    exact .inr ⟨rfl, .inl rfl⟩
  | cons d es ih =>
    rw [put] at h
    split_ifs at h with hsame
    · rcases List.mem_cons.mp h with rfl | he
      · exact .inr ⟨rfl, .inr ⟨d, List.mem_cons_self, rfl⟩⟩
      · exact .inl (List.mem_cons_of_mem _ he)
    · rcases List.mem_cons.mp h with rfl | he
      · exact .inl List.mem_cons_self
      · rcases ih he with hmem | ⟨hv, hk | ⟨c, hc, hkey⟩⟩
        · exact .inl (List.mem_cons_of_mem _ hmem)
        · exact .inr ⟨hv, .inl hk⟩
        · exact .inr ⟨hv, .inr ⟨c, List.mem_cons_of_mem _ hc, hkey⟩⟩

theorem KeysOnce.put {es : Entries} (h : KeysOnce es) (k : Scalar) (v : Document) : KeysOnce (put k v es) := by
  induction es with
  | nil => exact List.pairwise_singleton _ _
  | cons d es ih =>
    obtain ⟨hd, hes⟩ := List.pairwise_cons.mp h
    rw [Document.put]
    split_ifs with hsame
    · exact List.pairwise_cons.mpr ⟨hd, hes⟩
    · refine List.pairwise_cons.mpr ⟨fun e he => ?_, ih hes⟩
      rcases mem_put he with hmem | ⟨-, rfl | ⟨c, hc, hkey⟩⟩
      · exact hd e hmem
      · exact Bool.eq_false_iff.mpr hsame
      · rw [← hkey]
        exact hd c hc

/-- A key that is there once is found with its own value. -/
theorem get?_of_mem {es : Entries} (h : KeysOnce es) {e : Scalar × Document} (he : e ∈ es) {key : Scalar}
    (hkey : e.1.same key = true) : get? key es = some e.2 := by
  induction es with
  | nil => cases he
  | cons d es ih =>
    obtain ⟨hd, hes⟩ := List.pairwise_cons.mp h
    rcases List.mem_cons.mp he with rfl | he
    · rw [get?, if_pos hkey]
    · have hne : ¬ d.1.same key = true := by
        intro hsame
        have hfalse := hd e he
        rw [Scalar.same_congr hsame, Scalar.same_comm, hkey] at hfalse
        cases hfalse
      rw [get?, if_neg hne, ih hes he]

/-- Whether the key of an entry is new to a mapping. -/
def isNew (base : Entries) (e : Scalar × Document) : Bool := (get? e.1 base).isNone

/-- An entry of a mapping once another mapping is laid over it. -/
def updated (layer : Entries) (e : Scalar × Document) : Scalar × Document :=
  (e.1, match get? e.1 layer with
    | none => e.2
    | some v => overlayValue (some e.2) v)

/-- A value is given in its place, or at the end if its key is new. -/
theorem put_eq {es : Entries} (h : KeysOnce es) (k : Scalar) (v : Document) :
    put k v es = es.map (fun e => if e.1.same k then (e.1, v) else e) ++ [(k, v)].filter (isNew es) := by
  induction es with
  | nil => rfl
  | cons d es ih =>
    obtain ⟨l, w⟩ := d
    obtain ⟨hd, hes⟩ := List.pairwise_cons.mp h
    rw [Document.put, List.map_cons]
    by_cases hsame : l.same k = true
    · -- no other entry has the key
      have hrest : es.map (fun e => if e.1.same k then (e.1, v) else e) = es.map id := by
        refine List.map_congr_left fun e he => if_neg ?_
        rw [Scalar.same_comm, ← Scalar.same_congr hsame, hd e he]
        exact Bool.false_ne_true
      rw [if_pos hsame, if_pos hsame, hrest, List.map_id]
      simp [isNew, get?, hsame]
    · have hnew : isNew ((l, w) :: es) (k, v) = isNew es (k, v) := by rw [isNew, isNew, get?, if_neg hsame]
      rw [if_neg hsame, if_neg hsame, ih hes]
      simp only [List.filter_cons, List.filter_nil, hnew, List.cons_append]

/-- **One mapping over another, as a whole**: the entries of the lower one in their order, each with what the upper one
makes of it, and behind them the entries of the upper one that are new, in their order. The induction is on the upper
mapping; none of its other entries has the key of the first. -/
theorem overlay_eq {base layer : Entries} (hb : KeysOnce base) (hl : KeysOnce layer) :
    overlay base layer = base.map (updated layer) ++ layer.filter (isNew base) := by
  induction layer generalizing base with
  | nil =>
    have hid : base.map (updated []) = base.map id := List.map_congr_left fun _ _ => rfl
    rw [overlay, hid, List.map_id, List.filter_nil, List.append_nil]
  | cons d layer ih =>
    obtain ⟨k, v⟩ := d
    obtain ⟨hd, hlayer⟩ := List.pairwise_cons.mp hl
    set v' := overlayValue (get? k base) v with hv'
    have hrest : layer.filter (isNew (put k v' base)) = layer.filter (isNew base) := by
      refine List.filter_congr fun e he => ?_
      rw [isNew, isNew, get?_put, hd e he]
      rfl
    have hold : (base.map fun e => if e.1.same k then (e.1, v') else e).map (updated layer) =
        base.map (updated ((k, v) :: layer)) := by
      rw [List.map_map]
      refine List.map_congr_left fun e he => ?_
      rw [Function.comp_apply, updated, updated]
      by_cases hsame : e.1.same k = true
      · have hk : k.same e.1 = true := Scalar.same_comm e.1 k ▸ hsame
        rw [if_pos hsame, get?_eq_none_of_once hl hk, get?, if_pos hk, hv', get?_of_mem hb he hsame]
      · have hk : ¬ k.same e.1 = true := Scalar.same_comm e.1 k ▸ hsame
        rw [if_neg hsame, get?, if_neg hk]
    have hnew : ([(k, v')].filter (isNew base)).map (updated layer) = [(k, v)].filter (isNew base) := by
      have hnone : get? k layer = none := get?_eq_none_iff.mpr fun e he => Scalar.same_comm e.1 k ▸ hd e he
      cases hget : get? k base with
      | none =>
        have hsame : v' = v := by rw [hv', hget, overlayValue_of_base (by simp)]
        simp [isNew, hget, hsame, updated, hnone]
      | some w => simp [isNew, hget]
    rw [overlay, ih (hb.put _ _) hlayer, ← hv', hrest, put_eq hb, List.map_append, hold, hnew, List.append_assoc,
      ← List.filter_append, List.singleton_append]

theorem KeysOnce.overlay {base : Entries} (h : KeysOnce base) (layer : Entries) :
    KeysOnce (Document.overlay base layer) := by
  induction layer generalizing base with
  | nil =>
    rw [Document.overlay]
    exact h
  | cons d layer ih =>
    rw [Document.overlay]
    exact ih (h.put _ _)

/-- No mapping in a document repeats a key. -/
inductive EachKeyOnce : Document → Prop
  | scalar (s : Scalar) : EachKeyOnce (.scalar s)
  | list {items : List Document} (h : ∀ d ∈ items, EachKeyOnce d) : EachKeyOnce (.list items)
  | map {entries : Entries} (once : KeysOnce entries) (h : ∀ e ∈ entries, EachKeyOnce e.2) : EachKeyOnce (.map entries)
  | set (items : List Scalar) : EachKeyOnce (.set items)
  | pair {first second : Document} (h : EachKeyOnce first) (h' : EachKeyOnce second) : EachKeyOnce (.pair first second)

/-- However often keys are repeated among the entries that a mapping is made of, it has each of them once. -/
theorem eachKeyOnce_ofEntries {es : Entries} (h : ∀ e ∈ es, EachKeyOnce e.2) : EachKeyOnce (.map (ofEntries es)) := by
  suffices hfold : ∀ acc : Entries, EachKeyOnce (.map acc) →
      EachKeyOnce (.map (es.foldl (fun acc e => Document.put e.1 e.2 acc) acc)) from
    hfold [] (.map List.Pairwise.nil fun _ he => nomatch he)
  induction es with
  | nil => exact fun _ hacc => hacc
  | cons e es ih =>
    rintro acc (_ | _ | ⟨honce, hall⟩)
    refine ih (fun e he => h e (List.mem_cons_of_mem _ he)) _ (.map (honce.put e.1 e.2) fun d hd => ?_)
    rcases mem_put hd with hmem | ⟨hv, -⟩
    · exact hall d hmem
    · rw [hv]
      exact h e List.mem_cons_self

end Document

/-! ## Documents that are read -/

section Except

variable {ε α β : Type}

theorem exists_of_map_eq_ok {x : Except ε α} {f : α → β} {b : β} (h : x.map f = .ok b) : ∃ a, x = .ok a ∧ f a = b := by
  cases x with
  | error e => cases h
  | ok a => exact ⟨a, rfl, Except.ok.inj h⟩

theorem exists_of_bind_eq_ok {x : Except ε α} {f : α → Except ε β} {b : β} (h : x >>= f = .ok b) :
    ∃ a, x = .ok a ∧ f a = .ok b := by
  cases x with
  | error e => cases h
  | ok a => exact ⟨a, rfl, h⟩

theorem eq_ok_of_mapError_eq_ok {x : Except ε α} {f : ε → β} {a : α} (h : x.mapError f = .ok a) : x = .ok a := by
  cases x with
  | error e => cases h
  | ok b => exact congrArg _ (Except.ok.inj h)

end Except

namespace Json

theorem eachKeyOnce_number {dialect : Dialect} {cs rest : List Char} {d : Document}
    (h : number dialect cs = .ok (d, rest)) : d.EachKeyOnce := by
  simp only [number] at h
  split at h
  · cases h
  · split at h
    · split at h
      · cases h
      · cases h
        exact .scalar _
    · cases h
      exact .scalar _

/-- What one unit of fuel more reads is made of what is read with the fuel below it. -/
theorem eachKeyOnce_readValue (dialect : Dialect) (fuel : Nat) :
    (∀ cs d rest, readValue dialect fuel cs = .ok (d, rest) → d.EachKeyOnce) ∧
      (∀ cs ds rest, readItems dialect fuel cs = .ok (ds, rest) → ∀ d ∈ ds, d.EachKeyOnce) ∧
      ∀ cs es rest, readEntries dialect fuel cs = .ok (es, rest) → ∀ e ∈ es, e.2.EachKeyOnce := by
  induction fuel with
  | zero =>
    refine ⟨fun cs d rest h => ?_, fun cs ds rest h => ?_, fun cs es rest h => ?_⟩
    · rw [readValue] at h; cases h
    · rw [readItems] at h; cases h
    · rw [readEntries] at h; cases h
  | succ fuel ih =>
    obtain ⟨ihValue, ihItems, ihEntries⟩ := ih
    refine ⟨fun cs d rest h => ?_, fun cs ds rest h => ?_, fun cs es rest h => ?_⟩
    · cases cs with
      | nil => rw [readValue] at h; cases h
      | cons c cs =>
        rw [readValue] at h
        split_ifs at h
        · obtain ⟨r, -, hr⟩ := exists_of_map_eq_ok h
          cases hr
          exact .scalar _
        · split at h
          · cases h
            exact .list fun _ hd => nomatch hd
          · obtain ⟨r, hr, hd⟩ := exists_of_map_eq_ok h
            cases hd
            exact .list (ihItems _ _ _ hr)
        · split at h
          · cases h
            exact .map List.Pairwise.nil fun _ he => nomatch he
          · obtain ⟨r, hr, hd⟩ := exists_of_map_eq_ok h
            cases hd
            exact Document.eachKeyOnce_ofEntries (ihEntries _ _ _ hr)
        · split at h
          · cases h
            exact .scalar _
          · exact eachKeyOnce_number h
    · rw [readItems] at h
      obtain ⟨⟨d, more⟩, hd, h⟩ := exists_of_bind_eq_ok h
      have hfirst := ihValue _ _ _ hd
      dsimp only at h
      split at h
      · cases h
        simpa using hfirst
      · obtain ⟨⟨ds, more⟩, hds, h⟩ := exists_of_bind_eq_ok h
        cases h
        exact List.forall_mem_cons.mpr ⟨hfirst, ihItems _ _ _ hds⟩
      · cases h
    · unfold readEntries at h
      split at h
      · obtain ⟨⟨k, more⟩, -, h⟩ := exists_of_bind_eq_ok h
        dsimp only at h
        split at h
        · obtain ⟨⟨d, more⟩, hd, h⟩ := exists_of_bind_eq_ok h
          have hfirst := ihValue _ _ _ hd
          dsimp only at h
          split at h
          · cases h
            simpa using hfirst
          · obtain ⟨⟨es, more⟩, hes, h⟩ := exists_of_bind_eq_ok h
            cases h
            exact List.forall_mem_cons.mpr ⟨hfirst, ihEntries _ _ _ hes⟩
          · cases h
        · cases h
      · cases h

theorem eachKeyOnce_read {dialect : Dialect} {cs : List Char} {d : Document} (h : read dialect cs = .ok d) :
    d.EachKeyOnce := by
  rw [read] at h
  split_ifs at h
  split at h
  · cases h
  · rename_i hvalue
    split at h
    · cases h
      exact (eachKeyOnce_readValue _ _).1 _ _ _ hvalue
    · cases h

end Json

namespace Yaml

theorem both_eq_ok {α β : Type} {a : Except Located α} {b : Except Located β} {x : α} {y : β}
    (h : both a b = .ok (x, y)) : a = .ok x ∧ b = .ok y := by
  cases a <;> cases b <;> cases h
  exact ⟨rfl, rfl⟩

/-- Every result of faultless parts is that of one of them. -/
theorem mem_of_all_eq_ok {α : Type} {parts : List (Except Located α)} {xs : List α} (h : all parts = .ok xs) :
    ∀ x ∈ xs, .ok x ∈ parts := by
  induction parts generalizing xs with
  | nil =>
    cases h
    exact fun _ hx => nomatch hx
  | cons a as ih =>
    rw [all] at h
    obtain ⟨⟨y, ys⟩, hboth, rfl⟩ := exists_of_map_eq_ok h
    obtain ⟨rfl, hall⟩ := both_eq_ok hboth
    rintro x (_ | ⟨_, hx⟩)
    · exact List.mem_cons_self
    · exact List.mem_cons_of_mem _ (ih hall x hx)

/-- What a node describes: a scalar or a set, a list of what its items describe, or a mapping of its entries. -/
theorem Node.toDocument_cases {depth : Nat} {n : Node} {d : Document} (h : n.toDocument depth = .ok d) :
    (∃ s, d = .scalar s) ∨ (∃ items, d = .set items) ∨
      (∃ tag items ds, n = .sequence tag items ∧ d = .list ds ∧
        ((∀ x ∈ ds, .ok x ∈ documents (depth + 1) items) ∨ ∀ x ∈ ds, .ok x ∈ pairs (depth + 1) items)) ∨
      ∃ tag mark entries es, n = .mapping tag mark entries ∧ d = .map (Document.ofEntries es) ∧
        ∀ e ∈ es, .ok e ∈ (parts (depth + 1) entries).entries := by
  unfold Node.toDocument at h
  split at h
  · cases h
  · obtain ⟨ds, hds, rfl⟩ := exists_of_map_eq_ok h
    exact .inr (.inr (.inl ⟨_, _, ds, rfl, rfl, .inl (mem_of_all_eq_ok hds)⟩))
  · obtain ⟨ds, hds, rfl⟩ := exists_of_map_eq_ok h
    exact .inr (.inr (.inl ⟨_, _, ds, rfl, rfl, .inr (mem_of_all_eq_ok hds)⟩))
  · dsimp only at h
    split_ifs at h
    · cases h
    · obtain ⟨es, hes, rfl⟩ := exists_of_map_eq_ok h
      exact .inr (.inr (.inr ⟨_, _, _, es, rfl, rfl, mem_of_all_eq_ok hes⟩))
  · dsimp only at h
    split_ifs at h
    · cases h
    · obtain ⟨es, -, rfl⟩ := exists_of_map_eq_ok h
      exact .inr (.inl ⟨_, rfl⟩)
  · cases h
  · cases h
  · cases h
  · cases h
  · obtain ⟨s, -, rfl⟩ := exists_of_map_eq_ok h
    exact .inl ⟨s, rfl⟩

mutual

theorem Node.eachKeyOnce_toDocument (depth : Nat) (n : Node) {d : Document} (h : n.toDocument depth = .ok d) :
    d.EachKeyOnce := by
  cases n with
  | scalar tag mark plain text =>
    obtain ⟨s, rfl⟩ | ⟨items, rfl⟩ | ⟨_, _, _, hn, _⟩ | ⟨_, _, _, _, hn, _⟩ := Node.toDocument_cases h
    · exact .scalar s
    · exact .set items
    · cases hn
    · cases hn
  | sequence tag items =>
    obtain ⟨s, rfl⟩ | ⟨items, rfl⟩ | ⟨_, _, ds, hn, rfl, hds | hds⟩ | ⟨_, _, _, _, hn, _⟩ := Node.toDocument_cases h
    · exact .scalar s
    · exact .set items
    · obtain ⟨rfl, rfl⟩ := Node.sequence.inj hn
      exact .list fun d hd => eachKeyOnce_documents (depth + 1) items (hds d hd)
    · obtain ⟨rfl, rfl⟩ := Node.sequence.inj hn
      exact .list fun d hd => eachKeyOnce_pairs (depth + 1) items (hds d hd)
    · cases hn
  | mapping tag mark entries =>
    obtain ⟨s, rfl⟩ | ⟨items, rfl⟩ | ⟨_, _, _, hn, _⟩ | ⟨_, _, _, es, hn, rfl, hes⟩ := Node.toDocument_cases h
    · exact .scalar s
    · exact .set items
    · cases hn
    · obtain ⟨rfl, rfl, rfl⟩ := Node.mapping.inj hn
      exact Document.eachKeyOnce_ofEntries fun e he => eachKeyOnce_parts (depth + 1) entries (hes e he)

theorem eachKeyOnce_documents (depth : Nat) (ns : List Node) {d : Document} (h : .ok d ∈ documents depth ns) :
    d.EachKeyOnce := by
  cases ns with
  | nil => cases h
  | cons n ns =>
    rw [documents] at h
    rcases List.mem_cons.mp h with hn | hns
    · exact n.eachKeyOnce_toDocument depth hn.symm
    · exact eachKeyOnce_documents depth ns hns

theorem eachKeyOnce_pairs (depth : Nat) (ns : List Node) {d : Document} (h : .ok d ∈ pairs depth ns) :
    d.EachKeyOnce := by
  cases ns with
  | nil => cases h
  | cons n ns =>
    rcases n with _ | _ | ⟨tag, mark, _ | ⟨⟨k, v⟩, _ | _⟩⟩
    case mapping.cons.nil =>
      rw [pairs] at h
      rcases List.mem_cons.mp h with hn | hns
      · obtain ⟨⟨x, y⟩, hboth, rfl⟩ := exists_of_map_eq_ok hn.symm
        obtain ⟨hx, hy⟩ := both_eq_ok hboth
        exact .pair (k.eachKeyOnce_toDocument depth hx) (v.eachKeyOnce_toDocument depth hy)
      · exact eachKeyOnce_pairs depth ns hns
    -- Any other node is faulty and leaves the pairs behind it.
    all_goals
      unfold pairs at h
      rcases List.mem_cons.mp h with hn | hns
      · cases hn
      · exact eachKeyOnce_pairs depth ns hns

theorem eachKeyOnce_parts (depth : Nat) (es : List (Node × Node)) {e : Scalar × Document}
    (h : .ok e ∈ (parts depth es).entries) : e.2.EachKeyOnce := by
  cases es with
  | nil => cases h
  | cons kv es =>
    obtain ⟨k, v⟩ := kv
    rw [parts] at h
    simp only [Parts.entries] at h
    split_ifs at h with hk
    · have hm := @eachKeyOnce_merged depth v e
      have hrest := @eachKeyOnce_parts depth es e
      simp only [Parts.entries, List.mem_append] at h hm hrest
      tauto
    · have hv := @Node.eachKeyOnce_toDocument depth v
      have hrest := @eachKeyOnce_parts depth es e
      simp only [Parts.entries, List.mem_append, List.mem_cons] at h hrest
      rcases h with h | h | h
      · exact hrest (.inl h)
      · exact hv (both_eq_ok h.symm).2
      · exact hrest (.inr h)

theorem eachKeyOnce_merged (depth : Nat) (n : Node) {e : Scalar × Document}
    (h : .ok e ∈ (merged depth n).entries) : e.2.EachKeyOnce := by
  cases n with
  | scalar tag mark plain text =>
    rw [merged] at h
    cases h
  | sequence tag items =>
    rw [merged] at h
    exact eachKeyOnce_mergedAll depth items h
  | mapping tag mark entries =>
    rw [merged] at h
    exact eachKeyOnce_parts depth entries h

theorem eachKeyOnce_mergedAll (depth : Nat) (ns : List Node) {e : Scalar × Document}
    (h : .ok e ∈ (mergedAll depth ns).entries) : e.2.EachKeyOnce := by
  cases ns with
  | nil => cases h
  | cons n ns =>
    cases n with
    | mapping tag mark entries =>
      rw [mergedAll] at h
      have hm := @eachKeyOnce_mergedAll depth ns e
      have hrest := @eachKeyOnce_parts depth entries e
      simp only [Parts.entries, List.mem_append] at h hm hrest
      tauto
    | scalar tag mark plain text => cases h
    | sequence tag items => cases h

end

theorem eachKeyOnce_read {cs : List Char} {d : Document} (h : read cs = .ok d) : d.EachKeyOnce := by
  obtain ⟨n, -, h⟩ := exists_of_bind_eq_ok h
  cases n with
  | none =>
    cases h
    exact .scalar .null
  | some n => exact n.eachKeyOnce_toDocument 0 (eq_ok_of_mapError_eq_ok h)

end Yaml

/-- A document that is read from a file has each of its keys once. -/
theorem Config.eachKeyOnce_of_readDocument {path : String} {text : List Char} {d : Document}
    (h : readDocument path text = .ok d) : d.EachKeyOnce := by
  rw [readDocument] at h
  split_ifs at h
  · split at h
    · rename_i hread
      cases h
      exact Json.eachKeyOnce_read hread
    · cases h
  · split at h
    · rename_i hread
      cases h
      split_ifs
      · exact Yaml.eachKeyOnce_read hread
      · exact .map List.Pairwise.nil fun _ he => nomatch he
    · cases h

end HandlerComplexity
