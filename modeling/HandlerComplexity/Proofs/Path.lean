import HandlerComplexity.Source.Module
import Mathlib.Data.List.Basic

/-!
# Reading and writing paths

* `Path.IsRead`: the paths that reading a text can give.
* `Path.ofString_toString`: such a path is read back from its own text.
* `moduleName_below`: every file below the source root is a module.
-/

namespace HandlerComplexity

/-! ## Parts of a text -/

namespace Text

theorem splitAt_ne_nil (sep : Char) (cs : List Char) : splitAt sep cs ≠ [] := by
  cases cs with
  | nil => simp [splitAt]
  | cons c cs =>
    rw [splitAt]
    split_ifs
    · simp
    · split <;> simp

theorem splitAt_eq_splitOn (sep : Char) (cs : List Char) : splitAt sep cs = cs.splitOn sep := by
  induction cs with
  | nil => rfl
  | cons c cs ih =>
    rw [splitAt, List.splitOn, List.splitOnP_cons_eq_if_modifyHead, ← List.splitOn, ← ih]
    split_ifs
    · rfl
    · cases h : splitAt sep cs with
      | nil => exact absurd h (splitAt_ne_nil sep cs)
      | cons part parts => rfl

theorem splitAt_sep_cons (sep : Char) (cs : List Char) : splitAt sep (sep :: cs) = [] :: splitAt sep cs := by
  rw [splitAt, beq_self_eq_true, if_pos rfl]

theorem sep_not_mem_of_mem_splitAt {sep : Char} {cs part : List Char} (h : part ∈ splitAt sep cs) : sep ∉ part := by
  induction cs generalizing part with
  | nil =>
    obtain rfl : part = [] := by simpa [splitAt] using h
    exact List.not_mem_nil
  | cons c cs ih =>
    rw [splitAt] at h
    split_ifs at h with hc
    · rcases List.mem_cons.mp h with rfl | h
      · exact List.not_mem_nil
      · exact ih h
    · have hne : sep ≠ c := fun heq => hc (by simp [heq])
      cases hs : splitAt sep cs with
      | nil => exact absurd hs (splitAt_ne_nil sep cs)
      | cons first rest =>
        rw [hs] at h ih
        rcases List.mem_cons.mp h with rfl | h
        · rw [List.mem_cons, not_or]
          exact ⟨hne, ih List.mem_cons_self⟩
        · exact ih (List.mem_cons_of_mem _ h)

end Text

namespace Path

/-! ## Reading back -/

/-- A name that can stand as a part of a path. -/
def IsPart (part : String) : Prop := part ≠ "" ∧ part ≠ "." ∧ '/' ∉ part.toList

/-- A path that comes from reading a text. -/
structure IsRead (p : Path) : Prop where
  root : p.root = "" ∨ p.root = "/" ∨ p.root = "//"
  parts : ∀ part ∈ p.parts, IsPart part

theorem IsRead.parent {p : Path} (h : p.IsRead) : p.parent.IsRead :=
  ⟨h.root, fun part hpart => h.parts part (List.dropLast_subset _ hpart)⟩

theorem IsRead.append {p : Path} (h : p.IsRead) {more : List String} (hmore : ∀ part ∈ more, IsPart part) :
    (p.append more).IsRead := by
  refine ⟨h.root, fun part hpart => ?_⟩
  rcases List.mem_append.mp hpart with hpart | hpart
  · exact h.parts part hpart
  · exact hmore part hpart

theorem isRead_ofString (s : String) : (ofString s).IsRead := by
  constructor
  case root =>
    unfold ofString
    dsimp only
    split_ifs <;> simp
  case parts =>
    intro part hpart
    obtain ⟨cs, hcs, rfl⟩ := List.mem_map.mp hpart
    obtain ⟨hmem, hne⟩ := List.mem_filter.mp hcs
    simp only [ne_eq, decide_eq_true_eq] at hne
    refine ⟨?_, ?_, ?_⟩
    · rw [Ne, ← String.toList_inj, String.toList_ofList]
      exact hne.1
    · rw [Ne, ← String.toList_inj, String.toList_ofList]
      exact hne.2
    · rw [String.toList_ofList]
      exact Text.sep_not_mem_of_mem_splitAt hmem

/-- The parts of a text that begins with slashes are those behind the slashes. -/
theorem filter_splitAt_replicate (k : Nat) (cs : List Char) :
    (Text.splitAt '/' (List.replicate k '/' ++ cs)).filter (fun p => p ≠ [] ∧ p ≠ ['.']) =
      (Text.splitAt '/' cs).filter (fun p => p ≠ [] ∧ p ≠ ['.']) := by
  induction k with
  | zero => rfl
  | succ k ih =>
    rw [List.replicate_succ, List.cons_append, Text.splitAt_sep_cons, List.filter_cons, if_neg (by simp), ih]

/-- The parts of a path, written with slashes between them and read again. -/
theorem filter_splitAt_intercalate {parts : List String} (h : ∀ part ∈ parts, IsPart part) :
    (Text.splitAt '/' ("/".intercalate parts).toList).filter (fun p => p ≠ [] ∧ p ≠ ['.']) =
      parts.map String.toList := by
  by_cases hne : parts = []
  · subst hne
    rfl
  · have hsep : ∀ l ∈ parts.map String.toList, '/' ∉ l := by
      intro l hl
      obtain ⟨part, hpart, rfl⟩ := List.mem_map.mp hl
      exact (h part hpart).2.2
    have hsplit := List.splitOn_intercalate '/' hsep (by simpa using hne)
    have htext : ("/".intercalate parts).toList = ['/'].intercalate (parts.map String.toList) :=
      String.toList_intercalate
    rw [Text.splitAt_eq_splitOn, htext, hsplit, List.filter_eq_self]
    intro l hl
    obtain ⟨part, hpart, rfl⟩ := List.mem_map.mp hl
    obtain ⟨hempty, hdot, -⟩ := h part hpart
    rw [decide_eq_true_eq]
    exact ⟨fun heq => hempty (String.toList_inj.mp heq), fun heq => hdot (String.toList_inj.mp heq)⟩

/-- The text of the parts begins with the first of them. -/
theorem exists_intercalate_cons (part : String) (parts : List String) :
    ∃ rest, ("/".intercalate (part :: parts)).toList = part.toList ++ rest := by
  cases parts with
  | nil => exact ⟨[], by simp⟩
  | cons next parts =>
    exact ⟨"/".toList ++ ("/".intercalate (next :: parts)).toList, by simp [String.intercalate_cons_cons]⟩

/-- The text of the parts does not begin with a slash. -/
theorem takeWhile_slash_intercalate {parts : List String} (h : ∀ part ∈ parts, IsPart part) :
    ("/".intercalate parts).toList.takeWhile (· == '/') = [] := by
  cases parts with
  | nil => rfl
  | cons part parts =>
    obtain ⟨hempty, -, hslash⟩ := h part List.mem_cons_self
    obtain ⟨rest, htext⟩ := exists_intercalate_cons part parts
    cases hc : part.toList with
    | nil => exact absurd (String.toList_inj.mp hc) hempty
    | cons c cs =>
      rw [htext, hc, List.cons_append, List.takeWhile_cons_of_neg]
      rw [beq_iff_eq]
      rintro rfl
      exact hslash (hc ▸ List.mem_cons_self)

theorem ofString_slashes_intercalate {parts : List String} (h : ∀ part ∈ parts, IsPart part) {root : String} (k : Nat)
    (hroot : root.toList = List.replicate k '/') :
    ofString (root ++ "/".intercalate parts) = ⟨if k = 0 then "" else if k = 2 then "//" else "/", parts⟩ := by
  have hcs : (root ++ "/".intercalate parts).toList = List.replicate k '/' ++ ("/".intercalate parts).toList := by
    rw [String.toList_append, hroot]
  have hcount : ((root ++ "/".intercalate parts).toList.takeWhile (· == '/')).length = k := by
    rw [hcs, List.takeWhile_append_of_pos (by simp), takeWhile_slash_intercalate h]
    simp
  have hparts := filter_splitAt_replicate k ("/".intercalate parts).toList
  rw [filter_splitAt_intercalate h, ← hcs] at hparts
  unfold ofString
  dsimp only
  rw [hcount, hparts, List.map_map]
  simp [Function.comp_def, String.ofList_toList]

/-- **Reading back**: a path that was read is read again from its text. -/
theorem ofString_toString {p : Path} (h : p.IsRead) : ofString p.toString = p := by
  obtain ⟨root, parts⟩ := p
  obtain ⟨hroot, hparts⟩ := h
  dsimp only at hroot hparts
  unfold toString
  split_ifs with hdot
  · obtain ⟨rfl, rfl⟩ := hdot
    rfl
  · rcases hroot with rfl | rfl | rfl
    · exact ofString_slashes_intercalate hparts 0 rfl
    · exact ofString_slashes_intercalate hparts 1 (show "/".toList = _ by decide)
    · exact ofString_slashes_intercalate hparts 2 (show "//".toList = _ by decide)

theorem toString_ne_empty {p : Path} (h : p.IsRead) : p.toString ≠ "" := by
  intro hempty
  have hback := ofString_toString h
  rw [hempty] at hback
  rw [← hback] at hempty
  exact absurd hempty (by decide)

theorem relativeTo?_append (p : Path) (more : List String) : (p.append more).relativeTo? p = some ⟨"", more⟩ := by
  rw [relativeTo?, if_pos ⟨rfl, by simp [append]⟩]
  simp [append]

theorem components_append (root : Path) (more : List String) :
    (root.append more).components = root.components ++ more := by
  unfold components append
  dsimp only
  split_ifs <;> rfl

end Path

/-! ## Modules -/

/-- A file below the source root is a module: its path from there has a last part. -/
theorem moduleName_below {base : Path} (hbase : base.IsRead) {more : List String} (hne : more ≠ [])
    (hmore : ∀ part ∈ more, Path.IsPart part) :
    ∃ name, moduleName (base.append more).toString (some base.toString) = .ok name := by
  have hname : ({ parts := more } : Path).name ≠ "" := by
    rw [Path.name, List.getLastD_eq_getLast?, List.getLast?_eq_getLast_of_ne_nil hne]
    exact (hmore _ (List.getLast_mem hne)).1
  unfold moduleName
  split_ifs with hmemory
  · exact ⟨_, rfl⟩
  · dsimp only
    rw [if_neg (Path.toString_ne_empty hbase), Path.ofString_toString (hbase.append hmore),
      Path.ofString_toString hbase, Path.relativeTo?_append, Option.getD_some, Path.withoutSuffix, if_neg hname]
    exact ⟨_, rfl⟩

end HandlerComplexity
