import HandlerComplexity.Proofs.Building

/-!
# Sites

Where a node stands in a concrete tree. Two nodes of a tree can be equal as data, so a site has the positions on the way
to the node besides the nodes that are above it.

* `Cst.sites`: the sites that are reached through named children, in preorder; `sitesBelow_eq`: in terms of the children.
* `Site.ancestors`: the sites above a site, the nearest first.
* `mem_of_mem_ancestors`: in preorder, the sites above a site come before it.
* `mem_sitesBelow_of_suffix`, `eq_or_mem_ancestors`, `mem_sitesBelow_of_mem_ancestors`: a site is above another iff the other
  is in its tree, and this shows in their places.
-/

namespace HandlerComplexity

/-- A node and where it stands in a concrete tree. -/
structure Site where
  /-- The positions among the named children on the way to the node, the last one first. -/
  place : List Nat
  /-- The nodes above, the nearest first. -/
  above : List Cst
  node : Cst

namespace Cst

mutual

/-- The sites of a tree that stands at a place below other nodes. -/
def sitesBelow (place : List Nat) (above : List Cst) : Cst → List Site
  | c@⟨_, _, _, _, _, _, children⟩ => ⟨place, above, c⟩ :: sitesBelowAll place (c :: above) 0 children

/-- The sites of the named ones among the children from position `i` on. -/
def sitesBelowAll (place : List Nat) (above : List Cst) (i : Nat) : List Cst → List Site
  | [] => []
  | c :: cs =>
    if c.named then sitesBelow (i :: place) above c ++ sitesBelowAll place above (i + 1) cs
    else sitesBelowAll place above i cs

end

/-- The nodes of a tree that are reached through named children, in preorder, each with where it stands. -/
def sites (root : Cst) : List Site := sitesBelow [] [] root

/-- The nodes of a tree that are reached through named children, in preorder. -/
def namedNodes (root : Cst) : List Cst := root.sites.map (·.node)

theorem sitesBelowAll_eq (place : List Nat) (above : List Cst) (i : Nat) (cs : List Cst) :
    sitesBelowAll place above i cs =
      ((cs.filter (·.named)).zipIdx i).flatMap fun e => sitesBelow (e.2 :: place) above e.1 := by
  induction cs generalizing i with
  | nil => rfl
  | cons c cs ih =>
    rw [sitesBelowAll]
    cases hc : c.named with
    | true => simp [hc, ih]
    | false => simp [hc, ih]

theorem sitesBelow_eq_cons (place : List Nat) (above : List Cst) (c : Cst) :
    sitesBelow place above c = ⟨place, above, c⟩ :: sitesBelowAll place (c :: above) 0 c.children := by
  cases c
  rw [sitesBelow]

theorem sitesBelow_eq (place : List Nat) (above : List Cst) (c : Cst) :
    sitesBelow place above c =
      ⟨place, above, c⟩ :: c.namedChildren.zipIdx.flatMap fun e => sitesBelow (e.2 :: place) (c :: above) e.1 := by
  rw [sitesBelow_eq_cons, sitesBelowAll_eq, namedChildren]

/-- What the nodes of a tree are does not depend on what is above it. -/
theorem map_node_sitesBelow (place : List Nat) (above : List Cst) (c : Cst) :
    (sitesBelow place above c).map (·.node) = c :: c.namedChildren.flatMap namedNodes := by
  induction c using childInduction generalizing place above with
  | node c ih =>
    have hchild : ∀ e ∈ c.namedChildren.zipIdx, ∀ (p : List Nat) (a : List Cst),
        (sitesBelow p a e.1).map (·.node) = e.1.namedNodes := by
      intro e he p a
      have hmem := (List.mem_filter.mp (List.fst_mem_of_mem_zipIdx he)).1
      rw [namedNodes, sites, ih e.1 hmem, ih e.1 hmem]
    rw [sitesBelow_eq, List.map_cons, List.map_flatMap, List.flatMap_congr fun e he => hchild e he _ _]
    congr 1
    conv_rhs => rw [← List.zipIdx_map_fst 0 c.namedChildren, List.flatMap_map]

theorem namedNodes_eq (c : Cst) : c.namedNodes = c :: c.namedChildren.flatMap namedNodes :=
  map_node_sitesBelow [] [] c

theorem self_mem_namedNodes (c : Cst) : c ∈ c.namedNodes := by
  rw [namedNodes_eq]
  exact List.mem_cons_self

theorem namedNodes_subset_of_mem {c d : Cst} (h : d ∈ c.namedChildren) : d.namedNodes ⊆ c.namedNodes := by
  rw [namedNodes_eq c]
  exact fun x hx => List.mem_cons_of_mem _ (List.mem_flatMap.mpr ⟨d, h, hx⟩)

end Cst

/-! ## Above a site -/

namespace Site

/-- The sites above a place, the nearest first. -/
def up : List Nat → List Cst → List Site
  | _ :: place, c :: above => ⟨place, above, c⟩ :: up place above
  | _, _ => []

/-- The sites above a site, the nearest first. -/
def ancestors (o : Site) : List Site := up o.place o.above

end Site

/-- What is listed at a point of a list of lists is listed in one of them, after nothing that is not listed before. -/
theorem exists_of_flatMap_eq_append {α β : Type} {g : α → List β} {l : List α} {m₁ m₂ : List β} {b : β}
    (h : l.flatMap g = m₁ ++ b :: m₂) : ∃ a ∈ l, ∃ n₁ n₂, g a = n₁ ++ b :: n₂ ∧ n₁ ⊆ m₁ := by
  induction l generalizing m₁ with
  | nil => simp at h
  | cons a l ih =>
    rw [List.flatMap_cons, List.append_eq_append_iff] at h
    rcases h with ⟨n, rfl, hl⟩ | ⟨n, hg, hn⟩
    · obtain ⟨d, hd, n₁, n₂, hsplit, hsub⟩ := ih hl
      exact ⟨d, List.mem_cons_of_mem _ hd, n₁, n₂, hsplit, fun x hx => List.mem_append_right _ (hsub hx)⟩
    · cases n with
      | nil =>
        have hl : l.flatMap g = [] ++ b :: m₂ := hn.symm
        obtain ⟨d, hd, n₁, n₂, hsplit, hsub⟩ := ih hl
        exact ⟨d, List.mem_cons_of_mem _ hd, n₁, n₂, hsplit, fun x hx => nomatch hsub hx⟩
      | cons b' n =>
        obtain ⟨rfl, -⟩ := List.cons.inj hn
        exact ⟨a, List.mem_cons_self, m₁, n, hg, List.Subset.refl _⟩

/-- **Preorder**: the sites above a site of a tree are listed before it, as far as they are in the tree. -/
theorem ancestors_subset_of_sitesBelow_eq {place : List Nat} {above : List Cst} {c : Cst} {l₁ l₂ : List Site} {o : Site}
    (h : c.sitesBelow place above = l₁ ++ o :: l₂) : o.ancestors ⊆ l₁ ++ Site.up place above := by
  induction c using Cst.childInduction generalizing place above l₁ l₂ with
  | node c ih =>
    rw [Cst.sitesBelow_eq] at h
    cases l₁ with
    | nil =>
      obtain ⟨rfl, -⟩ := List.cons.inj h
      exact List.Subset.refl _
    | cons s l₁ =>
      obtain ⟨rfl, hrest⟩ := List.cons.inj h
      obtain ⟨e, he, n₁, n₂, hsplit, hsub⟩ := exists_of_flatMap_eq_append hrest
      intro a ha
      rcases List.mem_append.mp (ih e.1 (List.mem_filter.mp (List.fst_mem_of_mem_zipIdx he)).1 hsplit ha) with ha | ha
      · exact List.mem_append_left _ (List.mem_cons_of_mem _ (hsub ha))
      · rcases List.mem_cons.mp ha with rfl | ha
        · exact List.mem_append_left _ List.mem_cons_self
        · exact List.mem_append_right _ ha

/-- So of the sites with some property, those above a site are listed before it. -/
theorem mem_of_mem_ancestors {root : Cst} {p : Site → Bool} {l₁ l₂ : List Site} {a o : Site}
    (h : root.sites.filter p = l₁ ++ o :: l₂) (ha : a ∈ o.ancestors) (hp : p a = true) : a ∈ l₁ := by
  obtain ⟨m₁, m, hm, rfl, hrest⟩ := List.filter_eq_append_iff.mp h
  obtain ⟨n₁, n₂, rfl, hnone, -, -⟩ := List.filter_eq_cons_iff.mp hrest
  rw [← List.append_assoc] at hm
  have hmem : a ∈ m₁ ++ n₁ ++ [] := ancestors_subset_of_sitesBelow_eq hm ha
  rw [List.append_nil] at hmem
  rcases List.mem_append.mp hmem with hmem | hmem
  · exact List.mem_filter.mpr ⟨hmem, hp⟩
  · exact absurd hp (hnone a hmem)

/-! ## Sites below a site -/

namespace Cst

theorem mem_sitesBelow_iff {place : List Nat} {above : List Cst} {c : Cst} {v : Site} :
    v ∈ c.sitesBelow place above ↔
      v = ⟨place, above, c⟩ ∨ ∃ e ∈ c.namedChildren.zipIdx, v ∈ e.1.sitesBelow (e.2 :: place) (c :: above) := by
  rw [sitesBelow_eq, List.mem_cons, List.mem_flatMap]

/-- The places of the sites of a tree all lie below its own. -/
theorem suffix_place_of_mem {place : List Nat} {above : List Cst} {c : Cst} {v : Site}
    (hv : v ∈ c.sitesBelow place above) : place <:+ v.place := by
  induction c using childInduction generalizing place above with
  | node c ih =>
    rcases mem_sitesBelow_iff.mp hv with rfl | ⟨e, he, hv⟩
    · exact List.suffix_refl place
    · have hchild := (List.mem_filter.mp (List.fst_mem_of_mem_zipIdx he)).1
      exact (List.suffix_cons _ _).trans (ih e.1 hchild hv)

/-- A site whose place lies below that of another is a site of the tree there. The two go down through the same children, as
far as the place of the upper one goes. -/
theorem mem_sitesBelow_of_suffix {place : List Nat} {above : List Cst} {c : Cst} {u v : Site}
    (hu : u ∈ c.sitesBelow place above) (hv : v ∈ c.sitesBelow place above) (h : v.place <:+ u.place) :
    u ∈ v.node.sitesBelow v.place v.above := by
  induction c using childInduction generalizing place above with
  | node c ih =>
    have hwhole := hu
    rcases mem_sitesBelow_iff.mp hv with rfl | ⟨⟨d, k⟩, hd, hv⟩
    · exact hwhole
    · have hdown := (suffix_place_of_mem hv).trans h
      rcases mem_sitesBelow_iff.mp hu with rfl | ⟨⟨d', k'⟩, hd', hu⟩
      · have hlength : place.length + 1 ≤ place.length := hdown.length_le
        omega
      · have hstep := List.suffix_of_suffix_length_le hdown (suffix_place_of_mem hu) (by simp)
        have hsame : k :: place = k' :: place := hstep.eq_of_length (by simp)
        obtain ⟨rfl, -⟩ := List.cons.inj hsame
        obtain rfl : d = d' := by
          rw [List.mem_zipIdx_iff_getElem?] at hd hd'
          exact Option.some.inj (hd.symm.trans hd')
        exact ih d (List.mem_filter.mp (List.fst_mem_of_mem_zipIdx hd)).1 hu hv

end Cst

namespace Site

theorem ancestors_subset {o v : Site} (h : o ∈ v.ancestors) : o.ancestors ⊆ v.ancestors := by
  obtain ⟨place, above, c⟩ := v
  change o ∈ up place above at h
  show o.ancestors ⊆ up place above
  induction place generalizing above with
  | nil => cases h
  | cons k place ih =>
    cases above with
    | nil => cases h
    | cons d above =>
      rcases List.mem_cons.mp h with rfl | h
      · exact List.subset_cons_self _ _
      · exact List.Subset.trans (ih above h) (List.subset_cons_self _ _)

/-- A site of a tree is its root or has it above. -/
theorem eq_or_mem_ancestors {place : List Nat} {above : List Cst} {c : Cst} {v : Site}
    (hv : v ∈ c.sitesBelow place above) : v = ⟨place, above, c⟩ ∨ ⟨place, above, c⟩ ∈ v.ancestors := by
  induction c using Cst.childInduction generalizing place above with
  | node c ih =>
    rcases Cst.mem_sitesBelow_iff.mp hv with rfl | ⟨e, he, hv⟩
    · exact .inl rfl
    · right
      have hup : (⟨place, above, c⟩ : Site) ∈ Site.ancestors ⟨e.2 :: place, c :: above, e.1⟩ := List.mem_cons_self
      rcases ih e.1 (List.mem_filter.mp (List.fst_mem_of_mem_zipIdx he)).1 hv with rfl | habove
      · exact hup
      · exact ancestors_subset habove hup

/-- A site is one of the tree of each site above it. -/
theorem mem_sitesBelow_of_mem_ancestors {place : List Nat} {above : List Cst} {c : Cst} {o v : Site}
    (hv : v ∈ c.sitesBelow place above) (ho : o ∈ v.ancestors) :
    o ∈ up place above ∨ v ∈ o.node.sitesBelow o.place o.above := by
  induction c using Cst.childInduction generalizing place above with
  | node c ih =>
    have hwhole := hv
    rcases Cst.mem_sitesBelow_iff.mp hv with rfl | ⟨e, he, hv⟩
    · exact .inl ho
    · rcases ih e.1 (List.mem_filter.mp (List.fst_mem_of_mem_zipIdx he)).1 hv with habove | hbelow
      · rcases List.mem_cons.mp habove with rfl | habove
        · exact .inr hwhole
        · exact .inl habove
      · exact .inr hbelow

end Site

end HandlerComplexity
