import HandlerComplexity.Proofs.KeyPath

/-!
# Layers of overrides

Laying one mapping over another is associative up to one thing: a value that is no mapping removes the mapping below it,
and a mapping above it then starts anew, while the two taken together are a mapping that is laid over the lowest one.

* `Document.NoReopening`: this happens at no key path.
* `Document.overlay_overlay`: two layers as wholes, by the entries of the lowest mapping.
* `Document.overlayValue_assoc`, `Document.overlayValue_self`: the laws for all documents, by induction on the lowest.
* `Document.overlays_compose`: associativity, and one override applied twice.
-/

namespace HandlerComplexity

namespace Document

/-! ## Entries -/

/-- An entry is new to two layers if it is new to both. -/
theorem isNew_overlay {base layer : Entries} (h : KeysOnce layer) (e : Scalar × Document) :
    isNew (overlay base layer) e = (isNew base e && isNew layer e) := by
  rw [isNew, isNew, isNew, get?_overlay h]
  cases get? e.1 layer <;> simp

theorem filter_isNew_map_updated (base layer es : Entries) :
    (es.map (updated layer)).filter (isNew base) = (es.filter (isNew base)).map (updated layer) := by
  rw [List.filter_map]
  rfl

/-- **Two layers over a mapping.** The new entries come in the same order either way, so it is enough that the entries
of the lowest mapping become the same. -/
theorem overlay_overlay {b m t : Entries} (hb : KeysOnce b) (hm : KeysOnce m) (ht : KeysOnce t)
    (h : ∀ e ∈ b, updated t (updated m e) = updated (overlay m t) e) :
    overlay (overlay b m) t = overlay b (overlay m t) := by
  have hold : (b.map (updated m)).map (updated t) = b.map (updated (overlay m t)) := by
    rw [List.map_map]
    exact List.map_congr_left h
  have hnew : t.filter (isNew (overlay b m)) = (t.filter (isNew m)).filter (isNew b) := by
    rw [List.filter_filter]
    exact List.filter_congr fun e _ => isNew_overlay hm e
  calc overlay (overlay b m) t
      = (overlay b m).map (updated t) ++ t.filter (isNew (overlay b m)) := overlay_eq (hb.overlay m) ht
    _ = (b.map (updated m) ++ m.filter (isNew b)).map (updated t) ++ (t.filter (isNew m)).filter (isNew b) := by
        rw [hnew, overlay_eq hb hm]
    _ = b.map (updated (overlay m t)) ++ (m.map (updated t) ++ t.filter (isNew m)).filter (isNew b) := by
        rw [List.map_append, hold, List.filter_append, filter_isNew_map_updated, List.append_assoc]
    _ = overlay b (overlay m t) := by
        rw [← overlay_eq hm ht, ← overlay_eq hb (hm.overlay t)]

/-! ## Associativity -/

/-- At no key path the lowest and the upmost document hold mappings while the one between them holds something else. -/
def NoReopening (b m t : Document) : Prop :=
  ∀ p, ¬ (b.HoldsMap p ∧ t.HoldsMap p ∧ ∃ v, m.at? p = some v ∧ v.isMap = false)

theorem NoReopening.below {b m t : Entries} (h : NoReopening (map b) (map m) (map t)) {k : Scalar} {x y z : Document}
    (hx : get? k b = some x) (hy : get? k m = some y) (hz : get? k t = some z) : NoReopening x y z := by
  have hstep {es : Entries} {v : Document} (hv : get? k es = some v) (p : List Scalar) :
      (map es).at? (k :: p) = v.at? p := by
    rw [at?_cons, Document.entries, hv, Option.bind_some]
  rintro p ⟨⟨es, hes⟩, ⟨es', hes'⟩, v, hv, hflat⟩
  exact h (k :: p) ⟨⟨es, (hstep hx p).trans hes⟩, ⟨es', (hstep hz p).trans hes'⟩, v, (hstep hy p).trans hv, hflat⟩

theorem not_map_of_isMap {d : Document} (h : d.isMap = false) : ∀ es, d ≠ .map es := by
  rintro es rfl
  cases h

/-- **Two layers over a document.** The induction is on the lowest document: where all three are mappings, its values
are below those of the others. -/
theorem overlayValue_assoc {d m t : Document} (hd : d.EachKeyOnce) (hm : m.EachKeyOnce) (ht : t.EachKeyOnce)
    (h : NoReopening d m t) :
    overlayValue (some (overlayValue (some d) m)) t = overlayValue (some d) (overlayValue (some m) t) := by
  induction hd generalizing m t with
  | @map b once hall ih =>
    cases htmap : t.isMap with
    | false =>
      have hflat := not_map_of_isMap htmap
      rw [overlayValue_of_not_map hflat, overlayValue_of_not_map hflat, overlayValue_of_not_map hflat]
    | true =>
      obtain ⟨t, rfl⟩ := exists_map_of_isMap htmap
      cases hmmap : m.isMap with
      | false => exact absurd ⟨⟨b, rfl⟩, ⟨t, rfl⟩, m, rfl, hmmap⟩ (h [])
      | true =>
        obtain ⟨m, rfl⟩ := exists_map_of_isMap hmmap
        obtain - | - | ⟨hmonce, hmall⟩ := hm
        obtain - | - | ⟨htonce, htall⟩ := ht
        simp only [overlayValue_map_map]
        refine congrArg _ (overlay_overlay once hmonce htonce fun e he => ?_)
        simp only [updated, get?_overlay htonce]
        cases hz : get? e.1 t with
        | none => rfl
        | some z =>
          cases hy : get? e.1 m with
          | none => simp [overlayValue_of_base]
          | some y =>
            have hx : get? e.1 b = some e.2 := get?_of_mem once he (Scalar.same_self e.1)
            obtain ⟨k, hymem⟩ := mem_of_get? hy
            obtain ⟨l, hzmem⟩ := mem_of_get? hz
            exact congrArg _ (ih e he (hmall _ hymem) (htall _ hzmem) (h.below hx hy hz))
  | _ =>
    have hbase : ∀ {base : Document} (v : Document), base.isMap = false → overlayValue (some base) v = v :=
      fun v hflat => overlayValue_of_base (fun es hes => not_map_of_isMap hflat es (Option.some.inj hes)) v
    rw [hbase m rfl]
    exact (hbase _ rfl).symm

/-! ## One override applied twice -/

/-- A document laid over itself is the document. -/
theorem overlayValue_self {d : Document} (hd : d.EachKeyOnce) : overlayValue (some d) d = d := by
  induction hd with
  | @map b once hall ih =>
    have hget : ∀ e ∈ b, get? e.1 b = some e.2 := fun e he => get?_of_mem once he (Scalar.same_self e.1)
    have hold : b.map (updated b) = b.map id := by
      refine List.map_congr_left fun e he => ?_
      simp only [updated, hget e he, ih e he, id]
    have hnew : b.filter (isNew b) = [] := by
      refine List.filter_eq_nil_iff.mpr fun e he => ?_
      rw [isNew, hget e he]
      exact Bool.false_ne_true
    rw [overlayValue_map_map, overlay_eq once once, hold, hnew, List.map_id, List.append_nil]
  | _ => exact overlayValue_of_not_map (not_map_of_isMap rfl)

/-- **Layered overrides compose.** Two overrides one after the other are the one laid over the other, with the keys in
the same order, unless the first removes a mapping that the second opens again. The same override twice is the override
once. -/
theorem overlays_compose :
    (∀ b o₁ o₂ : Entries, (map b).EachKeyOnce → (map o₁).EachKeyOnce → (map o₂).EachKeyOnce →
        NoReopening (map b) (map o₁) (map o₂) → overlay (overlay b o₁) o₂ = overlay b (overlay o₁ o₂)) ∧
      ∀ b o : Entries, (map b).EachKeyOnce → (map o).EachKeyOnce → overlay (overlay b o) o = overlay b o := by
  have hassoc : ∀ b o₁ o₂ : Entries, (map b).EachKeyOnce → (map o₁).EachKeyOnce → (map o₂).EachKeyOnce →
      NoReopening (map b) (map o₁) (map o₂) → overlay (overlay b o₁) o₂ = overlay b (overlay o₁ o₂) := by
    intro b o₁ o₂ hb h₁ h₂ h
    have hdocuments := overlayValue_assoc hb h₁ h₂ h
    simpa only [overlayValue_map_map, map.injEq] using hdocuments
  refine ⟨hassoc, fun b o hb ho => ?_⟩
  have hself : overlay o o = o := by
    have hdocument := overlayValue_self ho
    simpa only [overlayValue_map_map, map.injEq] using hdocument
  -- an override cannot both be a mapping and something else at one path
  have hopen : NoReopening (map b) (map o) (map o) := by
    rintro p ⟨-, ⟨es, hes⟩, v, hv, hflat⟩
    obtain rfl := Option.some.inj (hes.symm.trans hv)
    cases hflat
  rw [hassoc b o o hb ho ho hopen, hself]

/-- A mapping with a mapping of one entry under one key. -/
def nestedEntry (key : String) (i : Int) : Entries := [(.text "x", .map [(.text key, .ofInt i)])]

theorem eachKeyOnce_nestedEntry (key : String) (i : Int) : (map (nestedEntry key i)).EachKeyOnce :=
  .map (List.pairwise_singleton _ _) <| List.forall_mem_singleton.mpr <|
    .map (List.pairwise_singleton _ _) <| List.forall_mem_singleton.mpr <| .scalar _

/-- What such a mapping holds: itself, its entry, and the number in that. -/
theorem at?_nestedEntry {key : String} {i : Int} {p : List Scalar} {v : Document}
    (h : (map (nestedEntry key i)).at? p = some v) :
    p = [] ∧ v = .map (nestedEntry key i) ∨ p = [.text "x"] ∧ v = .map [(.text key, .ofInt i)] ∨
      p = [.text "x", .text key] ∧ v = .ofInt i := by
  rcases p with _ | ⟨k, p⟩
  · exact .inl ⟨rfl, (Option.some.inj h).symm⟩
  right
  obtain ⟨w, hw, h⟩ := Option.bind_eq_some_iff.mp h
  obtain ⟨rfl, rfl⟩ : k = .text "x" ∧ Document.map [(.text key, .ofInt i)] = w := by
    simpa [nestedEntry, Document.entries, get?] using hw
  rcases p with _ | ⟨l, p⟩
  · exact .inl ⟨rfl, (Option.some.inj h).symm⟩
  right
  obtain ⟨w, hw, h⟩ := Option.bind_eq_some_iff.mp h
  obtain ⟨rfl, rfl⟩ : l = .text key ∧ Document.ofInt i = w := by
    simpa [Document.entries, get?] using hw
  rcases p with _ | ⟨_, p⟩
  · exact ⟨rfl, (Option.some.inj h).symm⟩
  · cases h

/-- Three layers of which the first two have different keys, and the last one comes back to the first. -/
theorem nestedEntries_compose :
    (map (nestedEntry "a" 1)).EachKeyOnce ∧ (map (nestedEntry "b" 2)).EachKeyOnce ∧
      (map (nestedEntry "a" 3)).EachKeyOnce ∧
      NoReopening (map (nestedEntry "a" 1)) (map (nestedEntry "b" 2)) (map (nestedEntry "a" 3)) ∧
      overlay (overlay (nestedEntry "a" 1) (nestedEntry "b" 2)) (nestedEntry "a" 3) =
        overlay (nestedEntry "a" 1) (overlay (nestedEntry "b" 2) (nestedEntry "a" 3)) ∧
      overlay (overlay (nestedEntry "a" 1) (nestedEntry "b" 2)) (nestedEntry "b" 2) =
        overlay (nestedEntry "a" 1) (nestedEntry "b" 2) := by
  have hopen : NoReopening (map (nestedEntry "a" 1)) (map (nestedEntry "b" 2)) (map (nestedEntry "a" 3)) := by
    rintro p ⟨⟨es, hes⟩, -, v, hv, hflat⟩
    rcases at?_nestedEntry hv with ⟨-, rfl⟩ | ⟨-, rfl⟩ | ⟨rfl, -⟩
    · cases hflat
    · cases hflat
    · rcases at?_nestedEntry hes with ⟨hp, -⟩ | ⟨hp, -⟩ | ⟨-, hes⟩
      · cases hp
      · cases hp
      · cases hes
  have hb := eachKeyOnce_nestedEntry "a" 1
  have h₁ := eachKeyOnce_nestedEntry "b" 2
  have h₂ := eachKeyOnce_nestedEntry "a" 3
  exact ⟨hb, h₁, h₂, hopen, overlays_compose.1 _ _ _ hb h₁ h₂ hopen, overlays_compose.2 _ _ hb h₁⟩

/-- A number between two mappings: in the one order the lowest mapping is removed, in the other one it is kept. -/
example :
    overlay (overlay (nestedEntry "a" 1) [(.text "x", .ofInt 0)]) (nestedEntry "b" 2) = nestedEntry "b" 2 ∧
      overlay (nestedEntry "a" 1) (overlay [(.text "x", .ofInt 0)] (nestedEntry "b" 2)) =
        [(.text "x", .map [(.text "a", .ofInt 1), (.text "b", .ofInt 2)])] :=
  ⟨rfl, rfl⟩

end Document

end HandlerComplexity
