import HandlerComplexity.Proofs.Grammar
import HandlerComplexity.Proofs.Tokens
import HandlerComplexity.Report

/-!
# Reports read back from JSON

A document is read back if it is made of scalars that are, of lists, and of mappings whose keys are different texts.
Indentation and line ends are skipped, and what stands behind a value, a comma or a new line, does not go on with it.

* `Json.ReadsBack`: a document is read back from what is written for it, at any level and with anything behind it.
* `Json.readsBack_list`, `Json.readsBack_map`: lists and mappings are read back if what is in them is.
* `Report.ofDocument?`: the report that a document tells of.
* `Report.toJson_reads_back`: the text of a report is JSON, and the report is read back from it.
-/

namespace HandlerComplexity

namespace Document

theorem put_of_new {k : Scalar} {es : Entries} (h : ∀ e ∈ es, e.1.same k = false) (v : Document) :
    put k v es = es ++ [(k, v)] := by
  induction es with
  | nil => rfl
  | cons e es ih =>
    obtain ⟨he, hes⟩ := List.forall_mem_cons.mp h
    rw [put, if_neg (Bool.eq_false_iff.mp he), ih hes]
    rfl

/-- Entries with different keys are those of their mapping. -/
theorem ofEntries_of_once {es : Entries} (h : KeysOnce es) : ofEntries es = es := by
  suffices hfold : ∀ acc, KeysOnce (acc ++ es) → es.foldl (fun acc e => put e.1 e.2 acc) acc = acc ++ es from
    hfold [] h
  clear h
  induction es with
  | nil => exact fun acc _ => (List.append_nil acc).symm
  | cons e es ih =>
    intro acc h
    have hnew : ∀ d ∈ acc, d.1.same e.1 = false := fun d hd =>
      (List.pairwise_append.mp h).2.2 d hd e List.mem_cons_self
    rw [List.foldl_cons, put_of_new hnew, ih _ (by rwa [List.append_cons] at h)]
    simp

end Document

namespace Json

/-! ## Blanks -/

/-- A text that does not begin with a blank or a closing bracket. -/
def Begins (cs : List Char) : Prop := ∃ c more, cs = c :: more ∧ isBlank c = false ∧ c ≠ ']'

theorem Begins.append {cs : List Char} (h : Begins cs) (rest : List Char) : Begins (cs ++ rest) := by
  obtain ⟨c, more, rfl, hc⟩ := h
  exact ⟨c, more ++ rest, rfl, hc⟩

theorem begins_of_digit {c : Char} (h : c.isDigit = true) (more : List Char) : Begins (c :: more) := by
  refine ⟨c, more, rfl, Bool.eq_false_iff.mpr fun hblank => ?_, ?_⟩
  · have hmem := isBlank_iff.mp hblank
    simp only [List.mem_cons, List.not_mem_nil, or_false] at hmem
    rcases hmem with rfl | rfl | rfl | rfl <;> exact absurd h (by decide)
  · rintro rfl
    exact absurd h (by decide)

theorem IsNumber.begins {cs : List Char} (h : IsNumber cs) : Begins cs := by
  obtain ⟨sign, whole, fraction, exponent, hsign, hwhole, -, -, rfl⟩ := h
  rcases hsign with rfl | rfl
  · rcases hwhole with rfl | ⟨⟨hne, hdigits⟩, -⟩
    · exact ⟨'0', _, rfl, by decide, by decide⟩
    · obtain ⟨d, ds, rfl⟩ := List.exists_cons_of_ne_nil hne
      exact begins_of_digit (hdigits d List.mem_cons_self) _
  · exact ⟨'-', _, rfl, by decide, by decide⟩

theorem IsValue.begins {cs : List Char} (h : IsValue cs) : Begins cs := by
  cases h with
  | null => exact ⟨'n', _, rfl, by decide, by decide⟩
  | «false» => exact ⟨'f', _, rfl, by decide, by decide⟩
  | «true» => exact ⟨'t', _, rfl, by decide, by decide⟩
  | number h => exact h.begins
  | string => exact ⟨'"', _, rfl, by decide, by decide⟩
  | emptyList | list => exact ⟨'[', _, rfl, by decide, by decide⟩
  | emptyMap | map => exact ⟨'\x7b', _, rfl, by decide, by decide⟩

theorem skipBlanks_of_begins {cs : List Char} (h : Begins cs) : skipBlanks cs = cs := by
  obtain ⟨c, more, rfl, hc, -⟩ := h
  exact List.dropWhile_cons_of_neg (by rw [hc]; decide)

theorem skipBlanks_newLine (level : Nat) (cs : List Char) : skipBlanks (newLine level ++ cs) = skipBlanks cs := by
  refine List.dropWhile_append_of_pos fun c hc => ?_
  rcases List.mem_cons.mp hc with rfl | hc
  · rfl
  · rw [List.eq_of_mem_replicate hc]
    rfl

theorem follows_newLine (level : Nat) (cs : List Char) : Follows (newLine level ++ cs) :=
  fun _ hc => .inr (Option.some.inj hc).symm

theorem follows_comma (cs : List Char) : Follows (',' :: cs) := fun _ hc => .inl (Option.some.inj hc).symm

/-! ## Scalars -/

/-- A document is read back from what is written for it, and reading stops where it ends. -/
def ReadsBack (d : Document) : Prop :=
  ∀ level fuel rest, Follows rest → (write level d).length < fuel →
    readValue {} fuel (write level d ++ rest) = .ok (d, rest)

theorem ReadsBack.begins {d : Document} (h : ReadsBack d) (level : Nat) : Begins (write level d) := by
  -- What is read is a value of the grammar, and none of those begins with a blank or a closing bracket.
  obtain ⟨text, htext, heq⟩ := (readsAll _).1 _ _ _ (h level _ [] (fun _ hc => nomatch hc) (Nat.lt_succ_self _))
  rw [List.append_nil, List.append_nil] at heq
  rw [heq]
  exact htext.begins

theorem readValue_name {text : String} {s : Scalar} (h : (text, s) ∈ names {}) (fuel : Nat) (rest : List Char) :
    readValue {} (fuel + 1) (text.toList ++ rest) = .ok (.scalar s, rest) := by
  have hmem : (text, s) ∈ [("null", Scalar.null), ("true", .bool true), ("false", .bool false)] := h
  simp only [List.mem_cons, List.not_mem_nil, or_false, Prod.mk.injEq] at hmem
  rcases hmem with ⟨rfl, rfl⟩ | ⟨rfl, rfl⟩ | ⟨rfl, rfl⟩
  all_goals
    simp only [readValue, name?, names]
    rfl

/-- A value that begins with a digit or a minus sign is a number. -/
theorem readValue_number {c : Char} (hc : c = '-' ∨ c.isDigit = true) (fuel : Nat) (cs : List Char) :
    readValue {} (fuel + 1) (c :: cs) = number {} (c :: cs) := by
  have hne : ∀ x ∈ ['"', '[', '\x7b', 'n', 't', 'f'], c ≠ x := by
    rintro x hx rfl
    rcases hc with rfl | hc
    · exact absurd hx (by decide)
    · simp only [List.mem_cons, List.not_mem_nil, or_false] at hx
      rcases hx with rfl | rfl | rfl | rfl | rfl | rfl <;> exact absurd hc (by decide)
  simp only [List.mem_cons, List.not_mem_nil, or_false, forall_eq_or_imp, forall_eq] at hne
  obtain ⟨hquote, hbracket, hbrace, hn, ht, hf⟩ := hne
  have hname : name? {} (c :: cs) = none := by
    simp [name?, names, hn.symm, ht.symm, hf.symm]
  rw [readValue, hname]
  simp [hquote, hbracket, hbrace]

theorem readsBack_bool (b : Bool) : ReadsBack (.scalar (.bool b)) := by
  rintro level (_ | fuel) rest hrest hfuel
  · cases hfuel
  · have hname : (if b then "true" else "false", Scalar.bool b) ∈ names {} := by cases b <;> decide
    exact readValue_name hname fuel rest

theorem readsBack_text (s : String) : ReadsBack (.scalar (.text s)) := by
  rintro level (_ | fuel) rest hrest hfuel
  · cases hfuel
  · have htext : write level (.scalar (.text s)) ++ rest = '"' :: (s.toList.flatMap escape ++ '"' :: rest) := by
      simp [write, scalar, string]
    rw [htext, readValue, if_pos (by decide), stringBody_text]
    exact congrArg (fun t => Except.ok (Document.scalar t, rest)) (ofPoints_pointsOf s)

theorem readValue_signText (negative : Bool) (n fuel : Nat) (rest : List Char) :
    readValue {} (fuel + 1) (signText negative ++ (Nat.toDigits 10 n ++ rest)) =
      number {} (signText negative ++ (Nat.toDigits 10 n ++ rest)) := by
  cases negative with
  | true => exact readValue_number (.inl rfl) fuel _
  | false =>
    obtain ⟨d, ds, hdigits⟩ := List.exists_cons_of_ne_nil (Nat.toDigits_ne_nil (b := 10) (n := n))
    have hd : d.isDigit = true :=
      Nat.isDigit_of_mem_toDigits (by decide) (by decide) (hdigits ▸ List.mem_cons_self)
    rw [hdigits]
    exact readValue_number (.inr hd) fuel _

theorem readsBack_int (i : Int) : ReadsBack (.scalar (.int i)) := by
  rintro level (_ | fuel) rest hrest hfuel
  · cases hfuel
  · have hnumber := number_int i hrest
    rw [toList_toString_int, List.append_assoc] at hnumber
    rw [write, scalar, toList_toString_int, List.append_assoc, readValue_signText, hnumber]
    rfl

theorem readsBack_real {x : Binary64} (hcanonical : x.IsCanonical) (hwhole : x.isWhole = true)
    (hsmall : x.toInt.natAbs < 10 ^ 16) : ReadsBack (.scalar (.real x)) := by
  rintro level (_ | fuel) rest hrest hfuel
  · cases hfuel
  · have hnumber := number_real hcanonical hwhole hsmall hrest
    cases x with
    | nan => cases hwhole
    | infinity negative => cases hwhole
    | finite negative m e =>
      rw [natAbs_toInt] at hsmall
      rw [toList_text_whole hwhole hsmall, List.append_assoc, List.append_assoc] at hnumber
      have htext : write level (.scalar (.real (.finite negative m e))) =
          (Binary64.finite negative m e).text.toList := rfl
      rw [htext, toList_text_whole hwhole hsmall, List.append_assoc, List.append_assoc, readValue_signText, hnumber]

/-! ## Lists -/

theorem readValue_of_items {fuel : Nat} {cs rest : List Char} {ds : List Document} (hbegins : Begins (skipBlanks cs))
    (hds : readItems {} fuel (skipBlanks cs) = .ok (ds, rest)) :
    readValue {} (fuel + 1) ('[' :: cs) = .ok (.list ds, rest) := by
  rw [readValue, if_neg (by decide), if_pos (by decide)]
  split
  · next hclose =>
    obtain ⟨c, more, heq, -, hne⟩ := hbegins
    rw [hclose] at heq
    exact absurd (List.cons.inj heq).1.symm hne
  · rw [hds]
    rfl

theorem readItems_of_close {fuel : Nat} {cs more rest : List Char} {d : Document}
    (hd : readValue {} fuel cs = .ok (d, more)) (hmore : skipBlanks more = ']' :: rest) :
    readItems {} (fuel + 1) cs = .ok ([d], rest) := by
  rw [readItems, hd]
  simp only [bind, Except.bind, hmore]

theorem readItems_of_comma {fuel : Nat} {cs more behind rest : List Char} {d : Document} {ds : List Document}
    (hd : readValue {} fuel cs = .ok (d, more)) (hmore : skipBlanks more = ',' :: behind)
    (hds : readItems {} fuel (skipBlanks behind) = .ok (ds, rest)) :
    readItems {} (fuel + 1) cs = .ok (d :: ds, rest) := by
  rw [readItems, hd]
  simp only [bind, Except.bind, hmore, hds]

/-- The items from the first one on, up to the closing bracket. The induction is on the items behind the first; each of
them takes one unit of fuel, and the commas alone make up for it. -/
theorem readItems_write {d : Document} {ds : List Document} (h : ∀ x ∈ d :: ds, ReadsBack x) {fuel : Nat}
    (level inner : Nat) (hfuel : (write inner d).length + (writeItems inner ds).length + 1 < fuel) (rest : List Char) :
    readItems {} fuel (write inner d ++ (writeItems inner ds ++ (newLine level ++ ']' :: rest))) =
      .ok (d :: ds, rest) := by
  induction ds generalizing d fuel with
  | nil =>
    obtain ⟨fuel, rfl⟩ : ∃ f, fuel = f + 1 := ⟨fuel - 1, by omega⟩
    have hd := h d List.mem_cons_self inner fuel _ (follows_newLine level (']' :: rest)) (by omega)
    exact readItems_of_close hd (skipBlanks_newLine level _)
  | cons e ds ih =>
    obtain ⟨fuel, rfl⟩ : ∃ f, fuel = f + 1 := ⟨fuel - 1, by omega⟩
    have hrest : ∀ x ∈ e :: ds, ReadsBack x := fun x hx => h x (List.mem_cons_of_mem _ hx)
    have hitems : writeItems inner (e :: ds) ++ (newLine level ++ ']' :: rest) =
        ',' :: (newLine inner ++ (write inner e ++ (writeItems inner ds ++ (newLine level ++ ']' :: rest)))) := by
      simp [writeItems]
    have hlength : (writeItems inner (e :: ds)).length =
        1 + (newLine inner).length + (write inner e).length + (writeItems inner ds).length := by
      simp only [writeItems, List.length_append, List.length_cons]
      omega
    rw [hitems]
    refine readItems_of_comma (h d List.mem_cons_self inner fuel _ (follows_comma _) (by omega)) rfl ?_
    rw [skipBlanks_newLine, skipBlanks_of_begins (((hrest e List.mem_cons_self).begins inner).append _)]
    exact ih hrest (by omega)

theorem readsBack_list {ds : List Document} (h : ∀ x ∈ ds, ReadsBack x) : ReadsBack (.list ds) := by
  rintro level (_ | fuel) rest hrest hfuel
  · cases hfuel
  · cases ds with
    | nil => rfl
    | cons d ds =>
      have htext : write level (.list (d :: ds)) ++ rest = '[' :: (newLine (level + 1) ++
          (write (level + 1) d ++ (writeItems (level + 1) ds ++ (newLine level ++ ']' :: rest)))) := by
        simp [write]
      have hlength : (write level (.list (d :: ds))).length = 2 + (newLine (level + 1)).length +
          (write (level + 1) d).length + (writeItems (level + 1) ds).length + (newLine level).length := by
        simp only [write, List.length_append, List.length_cons, List.length_nil]
        omega
      have hbegins := ((h d List.mem_cons_self).begins (level + 1)).append
        (writeItems (level + 1) ds ++ (newLine level ++ ']' :: rest))
      have hblanks := (skipBlanks_newLine (level + 1) _).trans (skipBlanks_of_begins hbegins)
      rw [htext]
      refine readValue_of_items ?_ ?_
      · rw [hblanks]
        exact hbegins
      · rw [hblanks]
        exact readItems_write h level (level + 1) (by omega) rest

/-! ## Mappings -/

section Entries

variable {fuel : Nat} {k : String} {value more rest : List Char} {d : Document}

theorem key_append (k : String) (cs : List Char) :
    key (.text k) ++ cs = '"' :: (k.toList.flatMap escape ++ '"' :: cs) := by
  simp [key, string]

theorem readEntries_of_close (hd : readValue {} fuel (skipBlanks value) = .ok (d, more))
    (hmore : skipBlanks more = '\x7d' :: rest) :
    readEntries {} (fuel + 1) (key (.text k) ++ ':' :: value) = .ok ([(.text k, d)], rest) := by
  have hcolon : skipBlanks (':' :: value) = ':' :: value := rfl
  rw [key_append, readEntries, stringBody_text]
  simp only [bind, Except.bind, hcolon, hd, hmore, ofPoints_pointsOf]

theorem readEntries_of_comma {next : List Char} {es : Entries}
    (hd : readValue {} fuel (skipBlanks value) = .ok (d, more)) (hmore : skipBlanks more = ',' :: next)
    (hes : readEntries {} fuel (skipBlanks next) = .ok (es, rest)) :
    readEntries {} (fuel + 1) (key (.text k) ++ ':' :: value) = .ok ((.text k, d) :: es, rest) := by
  have hcolon : skipBlanks (':' :: value) = ':' :: value := rfl
  rw [key_append, readEntries, stringBody_text]
  simp only [bind, Except.bind, hcolon, hd, hmore, hes, ofPoints_pointsOf]

end Entries

/-- Entries whose keys are texts. -/
def named (es : List (String × Document)) : Entries := es.map fun e => (.text e.1, e.2)

theorem skipBlanks_key (inner : Nat) (k : String) (cs : List Char) :
    skipBlanks (newLine inner ++ (key (.text k) ++ cs)) = key (.text k) ++ cs := by
  rw [skipBlanks_newLine, key_append]
  rfl

theorem ReadsBack.afterBlank {d : Document} (h : ReadsBack d) {level fuel : Nat} {rest : List Char}
    (hrest : Follows rest) (hfuel : (write level d).length < fuel) :
    readValue {} fuel (skipBlanks (' ' :: (write level d ++ rest))) = .ok (d, rest) := by
  have hblanks : skipBlanks (' ' :: (write level d ++ rest)) = write level d ++ rest :=
    skipBlanks_of_begins ((h.begins level).append rest)
  rw [hblanks]
  exact h level fuel rest hrest hfuel

/-- The entries from the first one on, up to the closing brace. -/
theorem readEntries_write {k : String} {d : Document} {es : List (String × Document)}
    (h : ∀ e ∈ (k, d) :: es, ReadsBack e.2) {fuel : Nat} (level inner : Nat)
    (hfuel : (write inner d).length + (writeEntries inner (named es)).length + 1 < fuel) (rest : List Char) :
    readEntries {} fuel (key (.text k) ++ ':' :: ' ' :: (write inner d ++
      (writeEntries inner (named es) ++ (newLine level ++ '\x7d' :: rest)))) = .ok (named ((k, d) :: es), rest) := by
  induction es generalizing k d fuel with
  | nil =>
    obtain ⟨fuel, rfl⟩ : ∃ f, fuel = f + 1 := ⟨fuel - 1, by omega⟩
    have hd : ReadsBack d := h (k, d) List.mem_cons_self
    exact readEntries_of_close (hd.afterBlank (follows_newLine level _) (by omega)) (skipBlanks_newLine level _)
  | cons e es ih =>
    obtain ⟨fuel, rfl⟩ : ∃ f, fuel = f + 1 := ⟨fuel - 1, by omega⟩
    obtain ⟨l, x⟩ := e
    have hd : ReadsBack d := h (k, d) List.mem_cons_self
    have hrest : ∀ e ∈ (l, x) :: es, ReadsBack e.2 := fun e he => h e (List.mem_cons_of_mem _ he)
    have hentries : writeEntries inner (named ((l, x) :: es)) ++ (newLine level ++ '\x7d' :: rest) =
        ',' :: (newLine inner ++ (key (.text l) ++ ':' :: ' ' :: (write inner x ++
          (writeEntries inner (named es) ++ (newLine level ++ '\x7d' :: rest))))) := by
      simp [named, writeEntries]
    have hlength : (writeEntries inner (named ((l, x) :: es))).length = 3 + (newLine inner).length +
        (key (.text l)).length + (write inner x).length + (writeEntries inner (named es)).length := by
      simp only [named, List.map_cons, writeEntries, List.length_append, List.length_cons]
      omega
    rw [hentries]
    refine readEntries_of_comma (hd.afterBlank (follows_comma _) (by omega)) rfl ?_
    rw [skipBlanks_key]
    exact ih hrest (by omega)

theorem readValue_of_entries {fuel : Nat} {cs rest : List Char} {es : Entries}
    (hbegins : ∃ more, skipBlanks cs = '"' :: more) (hes : readEntries {} fuel (skipBlanks cs) = .ok (es, rest)) :
    readValue {} (fuel + 1) ('\x7b' :: cs) = .ok (.map (Document.ofEntries es), rest) := by
  rw [readValue, if_neg (by decide), if_neg (by decide), if_pos (by decide)]
  split
  · next hclose =>
    obtain ⟨more, heq⟩ := hbegins
    rw [hclose] at heq
    exact absurd (List.cons.inj heq).1 (by decide)
  · rw [hes]
    rfl

theorem ofEntries_named {es : List (String × Document)} (hkeys : (es.map Prod.fst).Nodup) :
    Document.ofEntries (named es) = named es := by
  refine Document.ofEntries_of_once (List.pairwise_map.mpr ((List.pairwise_map.mp hkeys).imp fun hne => ?_))
  rw [← Bool.not_eq_true, Scalar.same_text_iff]
  exact fun heq => hne (Scalar.text.inj heq)

theorem readsBack_map {es : List (String × Document)} (hkeys : (es.map Prod.fst).Nodup) (h : ∀ e ∈ es, ReadsBack e.2) :
    ReadsBack (.map (named es)) := by
  rintro level (_ | fuel) rest hrest hfuel
  · cases hfuel
  · cases es with
    | nil => rfl
    | cons e es =>
      obtain ⟨k, d⟩ := e
      have htext : write level (.map (named ((k, d) :: es))) ++ rest = '\x7b' :: (newLine (level + 1) ++
          (key (.text k) ++ ':' :: ' ' :: (write (level + 1) d ++
            (writeEntries (level + 1) (named es) ++ (newLine level ++ '\x7d' :: rest))))) := by
        simp [named, write]
      have hlength : (write level (.map (named ((k, d) :: es)))).length = 4 + (newLine (level + 1)).length +
          (key (.text k)).length + (write (level + 1) d).length + (writeEntries (level + 1) (named es)).length +
          (newLine level).length := by
        simp only [named, List.map_cons, write, List.length_append, List.length_cons, List.length_nil]
        omega
      have hwithin : (write (level + 1) d).length + (writeEntries (level + 1) (named es)).length + 1 < fuel := by omega
      have hentries := readEntries_write h level (level + 1) hwithin rest
      rw [← skipBlanks_key (level + 1)] at hentries
      rw [htext, readValue_of_entries ⟨_, (skipBlanks_key ..).trans (key_append ..)⟩ hentries, ofEntries_named hkeys]

end Json

/-! ## Reports -/

/-- A number that is not negative, has no fraction and is below `10 ^ 16`. -/
def Value.IsCount : Value → Prop
  | .int i => 0 ≤ i ∧ i < 10 ^ 16
  | .flag _ => True
  | .real x => x.IsCanonical ∧ x.isWhole = true ∧ 0 ≤ x.toInt ∧ x.toInt < 10 ^ 16

instance : DecidablePred Value.IsCount
  | .int _ => inferInstanceAs (Decidable (_ ∧ _))
  | .flag _ => .isTrue trivial
  | .real _ => inferInstanceAs (Decidable (_ ∧ _ ∧ _ ∧ _))

namespace Document

/-- The value under a name. -/
def field? (name : String) : Document → Option Document
  | map es => get? (.text name) es
  | _ => none

def textAt? (name : String) (d : Document) : Option String :=
  match d.field? name with
  | some (scalar (.text s)) => some s
  | _ => none

def intAt? (name : String) (d : Document) : Option Int :=
  match d.field? name with
  | some (scalar (.int i)) => some i
  | _ => none

def listAt? (name : String) (d : Document) : Option (List Document) :=
  match d.field? name with
  | some (list ds) => some ds
  | _ => none

end Document

def ClassMeasure.ofDocument? (d : Document) : Option ClassMeasure := do
  let name ← d.textAt? "class"
  let path ← d.textAt? "path"
  let language ← d.textAt? "language"
  let metric ← (d.textAt? "metric").bind Metric.ofName?
  let value ← (d.field? "value").bind Value.ofDocument?
  return ⟨name, path, language, ⟨metric, value⟩⟩

def Trouble.ofDocument? (d : Document) : Option Trouble := do
  let target ← d.textAt? "target"
  let message ← d.textAt? "message"
  return ⟨target, message⟩

namespace Report

open Json

/-- The report that a document tells of: its counts, its measures and its errors, of which there must be as many as were
counted. -/
def ofDocument? (d : Document) : Option Report := do
  let summary ← d.field? "summary"
  let filesScanned ← summary.intAt? "files_scanned"
  let classesFound ← summary.intAt? "classes_found"
  let skipped ← summary.intAt? "skipped"
  let count ← summary.intAt? "errors"
  let measures ← (← d.listAt? "measures").mapM ClassMeasure.ofDocument?
  let errors ← (← d.listAt? "errors").mapM Trouble.ofDocument?
  guard (count = errors.length)
  return ⟨measures, filesScanned, classesFound, skipped, errors⟩

@[simp]
theorem field?_fields_cons (name k : String) (d : Document) (entries : List (String × Document)) :
    (fields ((k, d) :: entries)).field? name = if k = name then some d else (fields entries).field? name := by
  refine (Document.get?_text_cons name (.text k) d _).trans ?_
  simp only [Scalar.text.injEq]
  rfl

theorem mapM_map_of_inverse {α β : Type} {f : α → Option β} {g : β → α} (h : ∀ b, f (g b) = some b) (bs : List β) :
    (bs.map g).mapM f = some bs := by
  induction bs with
  | nil => rfl
  | cons b bs ih =>
    rw [List.map_cons, List.mapM_cons, h, ih]
    rfl

theorem ofDocument?_measure (m : ClassMeasure) : ClassMeasure.ofDocument? (measureDocument m) = some m := by
  obtain ⟨name, path, language, ⟨metric, value⟩⟩ := m
  have hvalue : Value.ofDocument? (.scalar value.toScalar) = some value := by cases value <;> rfl
  cases metric
  simp [ClassMeasure.ofDocument?, measureDocument, Document.textAt?, Document.ofText, hvalue, Metric.ofName?]

theorem ofDocument?_error (t : Trouble) : Trouble.ofDocument? (errorDocument t) = some t := by
  simp [Trouble.ofDocument?, errorDocument, Document.textAt?, Document.ofText]

theorem ofDocument?_toDocument (r : Report) : ofDocument? r.toDocument = some r := by
  have hmeasures := mapM_map_of_inverse ofDocument?_measure r.measures
  have herrors := mapM_map_of_inverse ofDocument?_error r.errors
  simp [ofDocument?, toDocument, Document.intAt?, Document.listAt?, Document.ofInt, hmeasures, herrors]

theorem readsBack_value {v : Value} (h : v.IsCount) : ReadsBack (.scalar v.toScalar) := by
  cases v with
  | int i => exact readsBack_int i
  | flag b => exact readsBack_bool b
  | real x =>
    obtain ⟨hcanonical, hwhole, hnonneg, hsmall⟩ := h
    exact readsBack_real hcanonical hwhole (by omega)

theorem readsBack_fields {entries : List (String × Document)} (hkeys : (entries.map Prod.fst).Nodup)
    (h : ∀ e ∈ entries, ReadsBack e.2) : ReadsBack (fields entries) := readsBack_map hkeys h

theorem readsBack_measure {m : ClassMeasure} (h : m.measure.value.IsCount) : ReadsBack (measureDocument m) := by
  refine readsBack_fields (show ["class", "path", "language", "metric", "value"].Nodup by decide) ?_
  simp only [List.forall_mem_cons, List.not_mem_nil, false_implies, implies_true, and_true]
  exact ⟨readsBack_text _, readsBack_text _, readsBack_text _, readsBack_text _, readsBack_value h⟩

theorem readsBack_error (t : Trouble) : ReadsBack (errorDocument t) := by
  refine readsBack_fields (show ["target", "message"].Nodup by decide) ?_
  simp only [List.forall_mem_cons, List.not_mem_nil, false_implies, implies_true, and_true]
  exact ⟨readsBack_text _, readsBack_text _⟩

theorem readsBack_toDocument {r : Report} (h : ∀ m ∈ r.measures, m.measure.value.IsCount) : ReadsBack r.toDocument := by
  have hsummary : ReadsBack (fields [("files_scanned", .ofInt r.filesScanned), ("classes_found", .ofInt r.classesFound),
      ("skipped", .ofInt r.skipped), ("errors", .ofInt r.errors.length)]) := by
    refine readsBack_fields (show ["files_scanned", "classes_found", "skipped", "errors"].Nodup by decide) ?_
    simp only [List.forall_mem_cons, List.not_mem_nil, false_implies, implies_true, and_true]
    exact ⟨readsBack_int _, readsBack_int _, readsBack_int _, readsBack_int _⟩
  have hmeasures : ReadsBack (.list (r.measures.map measureDocument)) :=
    readsBack_list (List.forall_mem_map.mpr fun m hm => readsBack_measure (h m hm))
  have herrors : ReadsBack (.list (r.errors.map errorDocument)) :=
    readsBack_list (List.forall_mem_map.mpr fun t _ => readsBack_error t)
  refine readsBack_fields (show ["summary", "measures", "errors"].Nodup by decide) ?_
  simp only [List.forall_mem_cons, List.not_mem_nil, false_implies, implies_true, and_true]
  exact ⟨hsummary, hmeasures, herrors⟩

theorem read_toJson {r : Report} (h : ∀ m ∈ r.measures, m.measure.value.IsCount) :
    Json.read {} r.toJson.toList = .ok r.toDocument := by
  have hdocument := readsBack_toDocument h
  have hread := hdocument 0 ((write 0 r.toDocument).length + 1) [] (fun _ hc => nomatch hc) (Nat.lt_succ_self _)
  have hmark : (write 0 r.toDocument).head? ≠ some '\ufeff' := by
    show some '\x7b' ≠ some '\ufeff'
    decide
  rw [List.append_nil] at hread
  rw [toJson, render, String.toList_ofList, Json.read, if_neg hmark, skipBlanks_of_begins (hdocument.begins 0), hread]
  rfl

/-- **A report is read back from its JSON.** If every value is a whole number that is not negative and is below
`10 ^ 16`, the text is JSON, a reader of JSON gets from it the document that was written, and in the document stand the
counts, the measures and the errors of the report, in order. -/
theorem toJson_reads_back (r : Report) (h : ∀ m ∈ r.measures, m.measure.value.IsCount) :
    IsText r.toJson.toList ∧ Json.read {} r.toJson.toList = .ok r.toDocument ∧ ofDocument? r.toDocument = some r :=
  ⟨isText_of_read (read_toJson h), read_toJson h, ofDocument?_toDocument r⟩

/-- Texts with quotes, backslashes, control characters and characters of two halves; both zeros and a score. -/
def escapedReport : Report where
  measures := [
    { name := "a\"b\\\n\x00", path := "😀/é.java", language := "\x7f", measure := ⟨.hcc, .ofScore 3⟩ },
    { name := "", path := "\ufeff", language := "java", measure := ⟨.hcc, .real (.zero true)⟩ },
    { name := "C", path := "D", language := "E", measure := ⟨.hcc, .int 0⟩ }]
  filesScanned := 3
  classesFound := -1
  skipped := 0
  errors := [⟨"𝄞", "\t\r"⟩, ⟨"", ""⟩]

theorem escapedReport_reads_back :
    (∀ m ∈ escapedReport.measures, m.measure.value.IsCount) ∧
    IsText escapedReport.toJson.toList ∧ Json.read {} escapedReport.toJson.toList = .ok escapedReport.toDocument ∧
    ofDocument? escapedReport.toDocument = some escapedReport :=
  have hvalues : ∀ m ∈ escapedReport.measures, m.measure.value.IsCount := by decide +kernel
  ⟨hvalues, toJson_reads_back escapedReport hvalues⟩

end Report

end HandlerComplexity
