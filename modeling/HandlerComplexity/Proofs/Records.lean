import HandlerComplexity.Report
import Mathlib.Data.List.Forall2

/-!
# Records read back

The reader goes through a text character by character. It is followed through what the writer makes of a field, of a
record and of all records, and at the end of each it is where it should be.

* `Csv.foldlM_field`, `Csv.foldlM_record`, `Csv.foldlM_write`: the reader behind a field, a record, all records.
* `Csv.read_write`: what was written is read back, if there is no carriage return in it.
* `Report.toCsv_reads_back`: a report is written unless a value is too large, and its records are read back.
-/

namespace HandlerComplexity

namespace Csv

/-! ## Fields -/

theorem isSpecial_eq_false_iff {c : Char} : isSpecial c = false ↔ c ≠ ',' ∧ c ≠ '"' ∧ c ≠ '\n' := by
  simp [isSpecial, and_assoc]

/-- Between quotes, every character is put into the field, and a quote that is written twice once. -/
theorem foldlM_double (cs : List Char) {r : Reader} (hr : r.mode = .quoted) :
    (double cs).foldlM Reader.step r = some { r with chars := cs.reverse ++ r.chars } := by
  induction cs generalizing r with
  | nil => rfl
  | cons c cs ih =>
    have hstep : (if c == '"' then ['"', '"'] else [c]).foldlM Reader.step r = some (r.put .quoted c) := by
      by_cases hc : c = '"'
      · subst hc
        simp [Reader.step, Reader.put, hr]
      · simp [Reader.step, Reader.put, hr, hc]
    rw [double, List.flatMap_cons, List.foldlM_append, hstep, ← double]
    refine (ih rfl).trans ?_
    simp [Reader.put, hr]

/-- A field without special characters is put into the field as it is. -/
theorem foldlM_plain {cs : List Char} (hcs : ∀ c ∈ cs, isSpecial c = false ∧ c ≠ '\r') {r : Reader}
    (hr : r.mode = .plain) : cs.foldlM Reader.step r = some { r with chars := cs.reverse ++ r.chars } := by
  induction cs generalizing r with
  | nil => rfl
  | cons c cs ih =>
    obtain ⟨hspecial, hreturn⟩ := hcs c List.mem_cons_self
    obtain ⟨hcomma, hquote, hnewline⟩ := isSpecial_eq_false_iff.mp hspecial
    have hstep : r.step c = some (r.put .plain c) := by
      simp [Reader.step, hr, hcomma, hnewline, hreturn, hquote]
    rw [List.foldlM_cons, hstep]
    refine (ih (fun d hd => hcs d (List.mem_cons_of_mem _ hd)) rfl).trans ?_
    simp [Reader.put, hr]

/-- **Behind a field** the reader holds its characters and can go on to the next field or record. -/
theorem foldlM_field {f : String} (hf : '\r' ∉ f.toList) {r : Reader} (hmode : r.mode = .fresh)
    (hchars : r.chars = []) :
    ∃ mode, mode ≠ .quoted ∧
      (field f).foldlM Reader.step r = some { r with mode := mode, chars := f.toList.reverse } := by
  rw [field]
  split_ifs with hspecial
  · -- between quotes
    refine ⟨.closed, by decide, ?_⟩
    have hopen : r.step '"' = some { r with mode := .quoted } := by simp [Reader.step, hmode]
    rw [List.cons_append, List.foldlM_cons, hopen]
    refine Eq.trans (List.foldlM_append ..) ?_
    rw [foldlM_double _ rfl, hchars, List.append_nil]
    rfl
  · -- as it is; an empty field leaves the reader where it was
    have hplain : ∀ c ∈ f.toList, isSpecial c = false ∧ c ≠ '\r' := by
      intro c hc
      refine ⟨?_, fun heq => hf (heq ▸ hc)⟩
      rw [List.any_eq_true, not_exists] at hspecial
      exact Bool.eq_false_iff.mpr fun h => hspecial c ⟨hc, h⟩
    cases htext : f.toList with
    | nil =>
      refine ⟨.fresh, by decide, ?_⟩
      obtain ⟨mode, chars, fields, records⟩ := r
      obtain rfl : mode = .fresh := hmode
      obtain rfl : chars = [] := hchars
      rfl
    | cons c cs =>
      rw [htext] at hplain
      obtain ⟨hc, hreturn⟩ := hplain c List.mem_cons_self
      obtain ⟨hcomma, hquote, hnewline⟩ := isSpecial_eq_false_iff.mp hc
      have hstep : r.step c = some (r.put .plain c) := by
        simp [Reader.step, hmode, hcomma, hnewline, hreturn, hquote]
      refine ⟨.plain, by decide, ?_⟩
      rw [List.foldlM_cons, hstep]
      refine (foldlM_plain (fun d hd => hplain d (List.mem_cons_of_mem _ hd)) rfl).trans ?_
      simp [Reader.put, hchars]

/-! ## Records -/

theorem foldlM_concat {cs : List Char} {r r' : Reader} (h : cs.foldlM Reader.step r = some r') (c : Char) :
    (cs ++ [c]).foldlM Reader.step r = r'.step c := by
  rw [List.foldlM_append, h]
  exact bind_pure (r'.step c)

theorem step_comma {r : Reader} (hr : r.mode ≠ .quoted) : r.step ',' = some r.endField := by
  simp [Reader.step, hr]

theorem step_newline {r : Reader} (hr : r.mode ≠ .quoted) : r.step '\n' = some r.endRecord := by
  simp [Reader.step, hr]

/-- **Behind a record** the reader is at the beginning of the next, with one record more. The induction is on the
fields; those that have been read already are kept in the reader. -/
theorem foldlM_record {fs : List String} (hne : fs ≠ []) (hfs : ∀ f ∈ fs, '\r' ∉ f.toList) {r : Reader}
    (hmode : r.mode = .fresh) (hchars : r.chars = []) :
    (record fs).foldlM Reader.step r =
      some { r with fields := [], records := (r.fields.reverse ++ fs) :: r.records } := by
  induction fs generalizing r with
  | nil => exact absurd rfl hne
  | cons f fs ih =>
    obtain ⟨mode, hquoted, hfield⟩ := foldlM_field (hfs f List.mem_cons_self) hmode hchars
    cases fs with
    | nil =>
      rw [record, foldlM_concat hfield, step_newline hquoted]
      simp [Reader.endRecord, Reader.endField, hmode, hchars]
    | cons g fs =>
      have hnext : (field f ++ [',']).foldlM Reader.step r =
          some { r with mode := .fresh, chars := [], fields := f :: r.fields } := by
        rw [foldlM_concat hfield, step_comma hquoted]
        simp [Reader.endField]
      rw [record.eq_3 _ _ (List.cons_ne_nil _ _), List.append_cons, List.foldlM_append, hnext]
      refine (ih (List.cons_ne_nil _ _) (fun h hh => hfs h (List.mem_cons_of_mem _ hh)) rfl rfl).trans ?_
      simp [hmode, hchars]

theorem foldlM_write {rs : List (List String)} (hne : ∀ fs ∈ rs, fs ≠ [])
    (hrs : ∀ fs ∈ rs, ∀ f ∈ fs, '\r' ∉ f.toList) (done : List (List String)) :
    (write rs).foldlM Reader.step { records := done } = some { records := rs.reverse ++ done } := by
  induction rs generalizing done with
  | nil => rfl
  | cons fs rs ih =>
    rw [write, List.flatMap_cons, List.foldlM_append,
      foldlM_record (hne fs List.mem_cons_self) (hrs fs List.mem_cons_self) rfl rfl, ← write]
    refine (ih (fun gs hgs => hne gs (List.mem_cons_of_mem _ hgs))
      (fun gs hgs => hrs gs (List.mem_cons_of_mem _ hgs)) _).trans ?_
    simp

/-- **Records are read back**, if each has a field and no field has a carriage return. -/
theorem read_write {rs : List (List String)} (hne : ∀ fs ∈ rs, fs ≠ []) (hrs : ∀ fs ∈ rs, ∀ f ∈ fs, '\r' ∉ f.toList) :
    read (write rs) = some rs := by
  rw [read, foldlM_write hne hrs]
  simp [Reader.finish]

/-- A carriage return does not make the writer quote a field, and then it is not read. -/
example : read (write [["a\rb"]]) = none := by decide

end Csv

/-! ## Numbers -/

theorem return_not_mem_toString (n : Nat) : '\r' ∉ (toString n).toList := by
  rw [Nat.toString_eq_repr, Nat.toList_repr]
  exact fun h => absurd (Nat.isDigit_of_mem_toDigits (by decide) (by decide) h) (by decide)

theorem return_not_mem_toString_int (i : Int) : '\r' ∉ (toString i).toList := by
  cases i with
  | ofNat n => exact return_not_mem_toString n
  | negSucc n =>
    have htext : toString (Int.negSucc n) = "-" ++ toString (n + 1) := rfl
    rw [htext, String.toList_append, List.mem_append, not_or]
    exact ⟨by decide, return_not_mem_toString _⟩

theorem return_not_mem_twoPlaces (x : Binary64) : '\r' ∉ x.twoPlaces.toList := by
  cases x with
  | nan => decide
  | infinity negative => cases negative <;> decide
  | finite negative m e =>
    simp only [Binary64.twoPlaces, String.toList_append, List.mem_append, not_or]
    refine ⟨⟨⟨⟨?_, return_not_mem_toString _⟩, by decide⟩, ?_⟩, return_not_mem_toString _⟩
    · split_ifs <;> decide
    · split_ifs <;> decide

namespace Value

/-- Whether a value can be taken as a real number. Only an integer can be too large for that. -/
def fits : Value → Bool
  | .int i =>
    match Binary64.ofInt i with
    | .infinity _ => false
    | _ => true
  | _ => true

theorem reported_of_not_fits {v : Value} (h : v.fits = false) : v.reported = .error .tooLarge := by
  cases v with
  | int i =>
    rw [fits] at h
    split at h
    · next hinfinite => rw [reported, hinfinite]
    · cases h
  | flag b => cases h
  | real x => cases h

theorem exists_reported {v : Value} (h : v.fits = true) :
    ∃ number, v.reported = .ok number ∧ '\r' ∉ number.toList := by
  cases v with
  | int i =>
    rw [fits] at h
    split at h
    · cases h
    · next hfinite =>
      refine ⟨toString i, ?_, return_not_mem_toString_int i⟩
      rw [reported]
      split
      · next hinfinite => exact (hfinite _ hinfinite).elim
      · rfl
  | flag b => exact ⟨_, rfl, by cases b <;> decide⟩
  | real x =>
    refine ⟨_, rfl, ?_⟩
    split_ifs
    · exact return_not_mem_toString_int _
    · exact return_not_mem_twoPlaces x

end Value

/-! ## Reports -/

namespace Report

/-- The record of a measure: the name of the class, that of the metric, the number and the path. -/
def IsRecordOf (m : ClassMeasure) (row : List String) : Prop :=
  ∃ number, m.measure.value.reported = .ok number ∧ row = [m.name, "HCC", number, m.path]

theorem exists_measureRecord {m : ClassMeasure} (hname : '\r' ∉ m.name.toList) (hpath : '\r' ∉ m.path.toList)
    (hfits : m.measure.value.fits = true) :
    ∃ row, measureRecord m = .ok row ∧ IsRecordOf m row ∧ row ≠ [] ∧ ∀ f ∈ row, '\r' ∉ f.toList := by
  obtain ⟨number, hreported, hnumber⟩ := Value.exists_reported hfits
  refine ⟨[m.name, "HCC", number, m.path], ?_, ⟨number, hreported, rfl⟩, List.cons_ne_nil _ _, ?_⟩
  · rw [measureRecord, hreported]
    rfl
  · simp [hname, hpath, hnumber]

theorem exists_rows {ms : List ClassMeasure} (hcr : ∀ m ∈ ms, '\r' ∉ m.name.toList ∧ '\r' ∉ m.path.toList)
    (hfits : ∀ m ∈ ms, m.measure.value.fits = true) :
    ∃ rows, ms.mapM measureRecord = .ok rows ∧ List.Forall₂ IsRecordOf ms rows ∧
      ∀ row ∈ rows, row ≠ [] ∧ ∀ f ∈ row, '\r' ∉ f.toList := by
  induction ms with
  | nil => exact ⟨[], rfl, .nil, by simp⟩
  | cons m ms ih =>
    obtain ⟨hname, hpath⟩ := hcr m List.mem_cons_self
    obtain ⟨row, hrow, hrecord, hplain⟩ := exists_measureRecord hname hpath (hfits m List.mem_cons_self)
    obtain ⟨rows, hrows, hrecords, hplains⟩ :=
      ih (fun n hn => hcr n (List.mem_cons_of_mem _ hn)) (fun n hn => hfits n (List.mem_cons_of_mem _ hn))
    refine ⟨row :: rows, ?_, .cons hrecord hrecords, List.forall_mem_cons.mpr ⟨hplain, hplains⟩⟩
    rw [List.mapM_cons, hrow, hrows]
    rfl

/-- A value that is too large anywhere keeps the records from being written. -/
theorem mapM_measureRecord_tooLarge {ms : List ClassMeasure} (h : ∃ m ∈ ms, m.measure.value.fits = false) :
    ms.mapM measureRecord = .error .tooLarge := by
  induction ms with
  | nil => simp at h
  | cons m ms ih =>
    rw [List.mapM_cons, measureRecord]
    cases hm : m.measure.value.fits with
    | false =>
      rw [Value.reported_of_not_fits hm]
      rfl
    | true =>
      obtain ⟨number, hreported, -⟩ := Value.exists_reported hm
      have hrest : ∃ n ∈ ms, n.measure.value.fits = false := by simpa [hm] using h
      rw [hreported, ih hrest]
      rfl

/-- **A report is read back from its records.** If no name and no path has a carriage return, the records are written
unless a value is too large to be a number, and reading them gives the header and then the record of each measure, in
order. -/
theorem toCsv_reads_back (r : Report) (hcr : ∀ m ∈ r.measures, '\r' ∉ m.name.toList ∧ '\r' ∉ m.path.toList) :
    ((∀ m ∈ r.measures, m.measure.value.fits = true) →
      ∃ text rows, r.toCsv = .ok text ∧
        Csv.read text.toList = some (["class", "metric", "value", "path"] :: rows) ∧
        List.Forall₂ IsRecordOf r.measures rows) ∧
    ((∃ m ∈ r.measures, m.measure.value.fits = false) → r.toCsv = .error .tooLarge) := by
  constructor
  · intro hfits
    obtain ⟨rows, hrows, hrecords, hplain⟩ := exists_rows hcr hfits
    have hheader : header ≠ [] ∧ ∀ f ∈ header, '\r' ∉ f.toList := by decide
    have hall : ∀ row ∈ header :: rows, row ≠ [] ∧ ∀ f ∈ row, '\r' ∉ f.toList :=
      List.forall_mem_cons.mpr ⟨hheader, hplain⟩
    refine ⟨String.ofList (Csv.write (header :: rows)), rows, ?_, ?_, hrecords⟩
    · rw [toCsv, records, hrows]
      rfl
    · rw [String.toList_ofList]
      exact Csv.read_write (fun row hrow => (hall row hrow).1) (fun row hrow => (hall row hrow).2)
  · intro hlarge
    rw [toCsv, records, mapM_measureRecord_tooLarge hlarge]
    rfl

/-- Two measures whose names and paths need all kinds of quoting; one is empty. -/
def quotedReport : Report where
  measures := [
    { name := "a,\"b\"\n c", path := " x\ny", language := "java", measure := ⟨.hcc, .int 3⟩ },
    { name := "", path := "\"\"", language := "", measure := ⟨.hcc, .real (.finite false 1 (-1))⟩ }]
  filesScanned := 1
  classesFound := 2
  skipped := 0
  errors := []

theorem quotedReport_reads_back :
    (∀ m ∈ quotedReport.measures, '\r' ∉ m.name.toList ∧ '\r' ∉ m.path.toList) ∧
    (∀ m ∈ quotedReport.measures, m.measure.value.fits = true) ∧
    ∃ text rows, quotedReport.toCsv = .ok text ∧
      Csv.read text.toList = some (["class", "metric", "value", "path"] :: rows) ∧
      List.Forall₂ IsRecordOf quotedReport.measures rows :=
  have hcr : ∀ m ∈ quotedReport.measures, '\r' ∉ m.name.toList ∧ '\r' ∉ m.path.toList := by decide
  have hfits : ∀ m ∈ quotedReport.measures, m.measure.value.fits = true := by decide +kernel
  ⟨hcr, hfits, (toCsv_reads_back quotedReport hcr).1 hfits⟩

end Report

end HandlerComplexity
