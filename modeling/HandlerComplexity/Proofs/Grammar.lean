import HandlerComplexity.Proofs.Overlay
import Mathlib.Data.List.TakeWhile

/-!
# The grammar of JSON

The grammar says which texts are JSON, without a word on how they are read. Whatever the reader takes is one of them,
if it is not told to take more than the standard.

* `Json.IsText`, `Json.IsValue`: the texts and values of the grammar.
* `Json.isChars_of_stringBody`, `Json.isNumber_of_number`: strings and numbers that are read.
* `Json.isText_of_read`: every text that is read is JSON.
-/

namespace HandlerComplexity.Json

/-! ## The grammar -/

def IsBlanks (cs : List Char) : Prop := ∀ c ∈ cs, c ∈ [' ', '\t', '\n', '\r']

def IsHexDigit (c : Char) : Prop := '0' ≤ c ∧ c ≤ '9' ∨ 'a' ≤ c ∧ c ≤ 'f' ∨ 'A' ≤ c ∧ c ≤ 'F'

/-- What stands between the quotes of a string. -/
inductive IsChars : List Char → Prop
  | nil : IsChars []
  | plain {c : Char} {cs : List Char} : ' ' ≤ c → c ≠ '"' → c ≠ '\\' → IsChars cs → IsChars (c :: cs)
  | escaped {c : Char} {cs : List Char} :
      c ∈ ['"', '\\', '/', 'b', 'f', 'n', 'r', 't'] → IsChars cs → IsChars ('\\' :: c :: cs)
  | unit {a b c d : Char} {cs : List Char} : IsHexDigit a → IsHexDigit b → IsHexDigit c → IsHexDigit d → IsChars cs →
      IsChars ('\\' :: 'u' :: a :: b :: c :: d :: cs)

/-- One digit or more. -/
def IsDigits (cs : List Char) : Prop := cs ≠ [] ∧ ∀ c ∈ cs, c.isDigit = true

def IsWholePart (cs : List Char) : Prop := cs = ['0'] ∨ IsDigits cs ∧ cs.head? ≠ some '0'

def IsFraction (cs : List Char) : Prop := cs = [] ∨ ∃ ds, IsDigits ds ∧ cs = '.' :: ds

def IsExponent (cs : List Char) : Prop :=
  cs = [] ∨ ∃ e sign ds, (e = 'e' ∨ e = 'E') ∧ (sign = [] ∨ sign = ['-'] ∨ sign = ['+']) ∧ IsDigits ds ∧
    cs = e :: (sign ++ ds)

def IsNumber (cs : List Char) : Prop :=
  ∃ sign whole fraction exponent, (sign = [] ∨ sign = ['-']) ∧ IsWholePart whole ∧ IsFraction fraction ∧
    IsExponent exponent ∧ cs = sign ++ (whole ++ (fraction ++ exponent))

mutual

inductive IsValue : List Char → Prop
  | null : IsValue "null".toList
  | false : IsValue "false".toList
  | true : IsValue "true".toList
  | number {cs : List Char} : IsNumber cs → IsValue cs
  | string {cs : List Char} : IsChars cs → IsValue ('"' :: (cs ++ ['"']))
  | emptyList {bs : List Char} : IsBlanks bs → IsValue ('[' :: (bs ++ [']']))
  | list {cs : List Char} : IsItems cs → IsValue ('[' :: (cs ++ [']']))
  | emptyMap {bs : List Char} : IsBlanks bs → IsValue ('\x7b' :: (bs ++ ['\x7d']))
  | map {cs : List Char} : IsEntries cs → IsValue ('\x7b' :: (cs ++ ['\x7d']))

/-- Values with commas between them, and blanks around each. -/
inductive IsItems : List Char → Prop
  | last {before value after : List Char} :
      IsBlanks before → IsValue value → IsBlanks after → IsItems (before ++ (value ++ after))
  | more {before value after cs : List Char} : IsBlanks before → IsValue value → IsBlanks after → IsItems cs →
      IsItems (before ++ (value ++ (after ++ ',' :: cs)))

/-- Strings, each with a value behind a colon, with commas between them, and blanks around each token. -/
inductive IsEntries : List Char → Prop
  | last {before key left right value after : List Char} :
      IsBlanks before → IsChars key → IsBlanks left → IsBlanks right → IsValue value → IsBlanks after →
      IsEntries (before ++ '"' :: (key ++ '"' :: (left ++ ':' :: (right ++ (value ++ after)))))
  | more {before key left right value after cs : List Char} :
      IsBlanks before → IsChars key → IsBlanks left → IsBlanks right → IsValue value → IsBlanks after → IsEntries cs →
      IsEntries (before ++ '"' :: (key ++ '"' :: (left ++ ':' :: (right ++ (value ++ (after ++ ',' :: cs))))))

end

/-- A text is a value with blanks around it. -/
def IsText (cs : List Char) : Prop :=
  ∃ before value after, IsBlanks before ∧ IsValue value ∧ IsBlanks after ∧ cs = before ++ (value ++ after)

/-! ## Blanks -/

theorem isBlanks_nil : IsBlanks [] := fun _ h => nomatch h

theorem IsBlanks.append {as bs : List Char} (ha : IsBlanks as) (hb : IsBlanks bs) : IsBlanks (as ++ bs) :=
  fun c hc => (List.mem_append.mp hc).elim (ha c) (hb c)

theorem isBlank_iff {c : Char} : isBlank c = true ↔ c ∈ [' ', '\t', '\n', '\r'] := by
  simp [isBlank, or_assoc]

theorem exists_skipBlanks (cs : List Char) : ∃ bs, IsBlanks bs ∧ cs = bs ++ skipBlanks cs :=
  ⟨cs.takeWhile isBlank, fun _ hc => isBlank_iff.mp (List.mem_takeWhile_imp hc),
    List.takeWhile_append_dropWhile.symm⟩

/-- What comes behind blanks, if it is known how it begins. -/
theorem exists_of_skipBlanks {cs rest : List Char} (h : skipBlanks cs = rest) : ∃ bs, IsBlanks bs ∧ cs = bs ++ rest :=
  h ▸ exists_skipBlanks cs

/-! ## Strings -/

theorem isHexDigit_of_hexValue? {c : Char} {n : Nat} (h : Digits.hexValue? c = some n) : IsHexDigit c := by
  unfold Digits.hexValue? at h
  split_ifs at h with hdigit hlower hupper
  · exact .inl hdigit
  · exact .inr (.inl hlower)
  · exact .inr (.inr hupper)

theorem isChars_unit {a b c d : Char} {n : Nat} {cs : List Char} (h : unit? a b c d = some n) (hcs : IsChars cs) :
    IsChars ('\\' :: 'u' :: a :: b :: c :: d :: cs) := by
  simp only [unit?, Option.bind_eq_bind, Option.bind_eq_some_iff] at h
  obtain ⟨_, ha, _, hb, _, hc, _, hd, -⟩ := h
  exact .unit (isHexDigit_of_hexValue? ha) (isHexDigit_of_hexValue? hb) (isHexDigit_of_hexValue? hc)
    (isHexDigit_of_hexValue? hd) hcs

theorem mem_of_unescape? {c e : Char} (h : unescape? c = some e) : c ∈ ['"', '\\', '/', 'b', 'f', 'n', 'r', 't'] := by
  unfold unescape? at h
  split at h <;> first | decide | cases h

/-- What is read up to the closing quote. -/
theorem isChars_of_stringBody {opening : Nat} {cs rest : List Char} {ps : Text.Points}
    (h : stringBody opening cs = .ok (ps, rest)) : ∃ text, cs = text ++ '"' :: rest ∧ IsChars text := by
  fun_induction stringBody opening cs generalizing ps rest with
  -- eight ways to fail
  | case1 | case2 | case3 | case4 | case5 | case9 | case10 | case13 => cases h
  | case6 a b c d high hhigh e f g i x more _ low hlow _ _ ih =>
    obtain ⟨⟨_, _⟩, hbody, heq⟩ := exists_of_map_eq_ok h
    cases heq
    obtain ⟨text, htext, hchars⟩ := ih hbody
    refine ⟨'\\' :: 'u' :: a :: b :: c :: d :: '\\' :: 'u' :: e :: f :: g :: i :: text, ?_, ?_⟩
    · rw [htext]
      rfl
    · exact isChars_unit hhigh (isChars_unit hlow hchars)
  | case7 a b c d n hn e f g i x more _ _ _ _ _ ih | case8 a b c d n hn more _ _ ih =>
    obtain ⟨⟨_, _⟩, hbody, heq⟩ := exists_of_map_eq_ok h
    cases heq
    obtain ⟨text, htext, hchars⟩ := ih hbody
    refine ⟨'\\' :: 'u' :: a :: b :: c :: d :: text, ?_, isChars_unit hn hchars⟩
    rw [htext]
    rfl
  | case11 c more _ _ e he ih =>
    obtain ⟨⟨_, _⟩, hbody, heq⟩ := exists_of_map_eq_ok h
    cases heq
    obtain ⟨text, htext, hchars⟩ := ih hbody
    refine ⟨'\\' :: c :: text, ?_, .escaped (mem_of_unescape? he) hchars⟩
    rw [htext]
    rfl
  | case12 c more _ _ _ _ hquote =>
    cases h
    exact ⟨[], by rw [eq_of_beq hquote]; rfl, .nil⟩
  | case14 c more hlast hunit hbroken hescape hquote hcontrol ih =>
    obtain ⟨⟨_, _⟩, hbody, heq⟩ := exists_of_map_eq_ok h
    cases heq
    obtain ⟨text, htext, hchars⟩ := ih hbody
    have hbackslash : c ≠ '\\' := by
      intro hc
      cases more with
      | nil => exact hlast hc rfl
      | cons x more => exact hescape x more hc rfl
    have hprintable : ' ' ≤ c := by
      show ' '.toNat ≤ c.toNat
      have : ' '.toNat = 32 := rfl
      omega
    refine ⟨c :: text, ?_, .plain hprintable (fun hc => hquote (beq_iff_eq.mpr hc)) hbackslash hchars⟩
    rw [htext]
    rfl

/-! ## Numbers -/

theorem exists_minusSign (cs : List Char) : ∃ sign, (sign = [] ∨ sign = ['-']) ∧ cs = sign ++ (minusSign cs).2 := by
  unfold minusSign
  split
  · exact ⟨['-'], .inr rfl, rfl⟩
  · exact ⟨[], .inl rfl, rfl⟩

theorem exists_exponentSign (cs : List Char) :
    ∃ sign, (sign = [] ∨ sign = ['-'] ∨ sign = ['+']) ∧ cs = sign ++ (exponentSign cs).2 := by
  unfold exponentSign
  split
  · exact ⟨['+'], .inr (.inr rfl), rfl⟩
  · obtain ⟨sign, hsign, heq⟩ := exists_minusSign cs
    exact ⟨sign, hsign.imp_right .inl, heq⟩

theorem isDigits_of_span {cs ds rest : List Char} (h : Digits.span cs = (ds, rest)) (hne : ds ≠ []) :
    IsDigits ds ∧ cs = ds ++ rest := by
  obtain ⟨rfl, rfl⟩ := Prod.mk.inj h
  exact ⟨⟨hne, fun c hc => List.mem_takeWhile_imp hc⟩, List.takeWhile_append_dropWhile.symm⟩

theorem isWholePart_of_wholePart {cs ds rest : List Char} (h : wholePart cs = (ds, rest)) (hne : ds ≠ []) :
    IsWholePart ds ∧ cs = ds ++ rest := by
  unfold wholePart at h
  split at h
  · cases h
    exact ⟨.inl rfl, rfl⟩
  · next hzero =>
    obtain ⟨hdigits, rfl⟩ := isDigits_of_span h hne
    refine ⟨.inr ⟨hdigits, fun hhead => ?_⟩, rfl⟩
    obtain ⟨more, rfl⟩ := List.head?_eq_some_iff.mp hhead
    exact hzero _ rfl

theorem exists_fractionPart (cs : List Char) : ∃ text, IsFraction text ∧ cs = text ++ (fractionPart cs).2 := by
  unfold fractionPart
  split
  · split
    · exact ⟨[], .inl rfl, rfl⟩
    · next more ds behind hne hspan =>
      obtain ⟨hdigits, rfl⟩ := isDigits_of_span hspan hne
      exact ⟨'.' :: ds, .inr ⟨ds, hdigits, rfl⟩, rfl⟩
  · exact ⟨[], .inl rfl, rfl⟩

theorem exists_exponentPart (cs : List Char) : ∃ text, IsExponent text ∧ cs = text ++ (exponentPart cs).2 := by
  unfold exponentPart
  split
  · next e more =>
    split
    · next hletter =>
      obtain ⟨sign, hsign, hmore⟩ := exists_exponentSign more
      dsimp only
      split
      · exact ⟨[], .inl rfl, rfl⟩
      · next ds behind hne hspan =>
        obtain ⟨hdigits, hbehind⟩ := isDigits_of_span hspan hne
        refine ⟨e :: (sign ++ ds), .inr ⟨e, sign, ds, by simpa using hletter, hsign, hdigits, rfl⟩, ?_⟩
        rw [hmore, hbehind]
        simp
    · exact ⟨[], .inl rfl, rfl⟩
  · exact ⟨[], .inl rfl, rfl⟩

theorem isNumber_of_number {dialect : Dialect} {cs rest : List Char} {d : Document}
    (h : number dialect cs = .ok (d, rest)) : ∃ text, IsNumber text ∧ cs = text ++ rest := by
  obtain ⟨sign, hsign, hcs⟩ := exists_minusSign cs
  unfold number at h
  dsimp only at h
  split at h
  · cases h
  · next whole more hne hwhole =>
    obtain ⟨hwhole, hdigits⟩ := isWholePart_of_wholePart hwhole hne
    obtain ⟨fraction, hfraction, hmore⟩ := exists_fractionPart more
    obtain ⟨exponent, hexponent, hrest⟩ := exists_exponentPart (fractionPart more).2
    have heq : (exponentPart (fractionPart more).2).2 = rest := by
      split_ifs at h <;> cases h <;> rfl
    refine ⟨_, ⟨sign, whole, fraction, exponent, hsign, hwhole, hfraction, hexponent, rfl⟩, ?_⟩
    calc cs = sign ++ (whole ++ (fraction ++ (fractionPart more).2)) := by rw [← hmore, ← hdigits, ← hcs]
      _ = sign ++ (whole ++ (fraction ++ exponent)) ++ rest := by
        rw [hrest, heq]
        simp

/-! ## Values -/

theorem exists_name {cs rest : List Char} {s : Scalar} (h : name? {} cs = some (s, rest)) :
    ∃ text, IsValue text ∧ cs = text ++ rest := by
  obtain ⟨⟨text, t⟩, hfind, heq⟩ := Option.map_eq_some_iff.mp h
  obtain ⟨-, rfl⟩ := Prod.mk.inj heq
  have hfront : text.toList <+: cs := List.isPrefixOf_iff_prefix.mp (by simpa using List.find?_some hfind)
  refine ⟨text.toList, ?_, ?_⟩
  · have hmem : (text, t) ∈ [("null", Scalar.null), ("true", .bool true), ("false", .bool false)] :=
      List.mem_of_find?_eq_some hfind
    simp only [List.mem_cons, List.not_mem_nil, or_false, Prod.mk.injEq] at hmem
    rcases hmem with ⟨rfl, -⟩ | ⟨rfl, -⟩ | ⟨rfl, -⟩
    · exact .null
    · exact .true
    · exact .false
  · rw [← String.length_toList]
    exact (List.prefix_iff_eq_append.mp hfront).symm

theorem IsItems.behindBlanks {bs cs : List Char} (hbs : IsBlanks bs) (hcs : IsItems cs) : IsItems (bs ++ cs) := by
  cases hcs with
  | last hbefore hvalue hafter =>
    rw [← List.append_assoc]
    exact .last (hbs.append hbefore) hvalue hafter
  | more hbefore hvalue hafter hmore =>
    rw [← List.append_assoc]
    exact .more (hbs.append hbefore) hvalue hafter hmore

theorem IsEntries.behindBlanks {bs cs : List Char} (hbs : IsBlanks bs) (hcs : IsEntries cs) : IsEntries (bs ++ cs) := by
  cases hcs with
  | last hbefore hkey hleft hright hvalue hafter =>
    rw [← List.append_assoc]
    exact .last (hbs.append hbefore) hkey hleft hright hvalue hafter
  | more hbefore hkey hleft hright hvalue hafter hmore =>
    rw [← List.append_assoc]
    exact .more (hbs.append hbefore) hkey hleft hright hvalue hafter hmore

/-- With this much fuel, what is read as a value is one. -/
def ReadsValues (fuel : Nat) : Prop :=
  ∀ cs d rest, readValue {} fuel cs = .ok (d, rest) → ∃ text, IsValue text ∧ cs = text ++ rest

def ReadsItems (fuel : Nat) : Prop :=
  ∀ cs ds rest, readItems {} fuel cs = .ok (ds, rest) → ∃ text, IsItems text ∧ cs = text ++ ']' :: rest

def ReadsEntries (fuel : Nat) : Prop :=
  ∀ cs es rest, readEntries {} fuel cs = .ok (es, rest) → ∃ text, IsEntries text ∧ cs = text ++ '\x7d' :: rest

section Step

variable {fuel : Nat}

theorem readsValues_succ (hitems : ReadsItems fuel) (hentries : ReadsEntries fuel) : ReadsValues (fuel + 1) := by
  intro cs d rest h
  cases cs with
  | nil => rw [readValue] at h; cases h
  | cons c cs =>
    obtain ⟨bs, hbs, hcs⟩ := exists_skipBlanks cs
    rw [readValue] at h
    split_ifs at h with hquote hbracket hbrace
    · -- a string
      obtain ⟨⟨_, _⟩, hbody, heq⟩ := exists_of_map_eq_ok h
      cases heq
      obtain ⟨text, rfl, hchars⟩ := isChars_of_stringBody hbody
      refine ⟨'"' :: (text ++ ['"']), .string hchars, ?_⟩
      rw [eq_of_beq hquote]
      simp
    · -- a list
      split at h
      · next hclose =>
        cases h
        refine ⟨'[' :: (bs ++ [']']), .emptyList hbs, ?_⟩
        rw [eq_of_beq hbracket, hcs, hclose]
        simp
      · obtain ⟨⟨_, _⟩, hread, heq⟩ := exists_of_map_eq_ok h
        cases heq
        obtain ⟨text, htext, hrest⟩ := hitems _ _ _ hread
        refine ⟨'[' :: (bs ++ text ++ [']']), .list (htext.behindBlanks hbs), ?_⟩
        rw [eq_of_beq hbracket, hcs, hrest]
        simp
    · -- a mapping
      split at h
      · next hclose =>
        cases h
        refine ⟨'\x7b' :: (bs ++ ['\x7d']), .emptyMap hbs, ?_⟩
        rw [eq_of_beq hbrace, hcs, hclose]
        simp
      · obtain ⟨⟨_, _⟩, hread, heq⟩ := exists_of_map_eq_ok h
        cases heq
        obtain ⟨text, htext, hrest⟩ := hentries _ _ _ hread
        refine ⟨'\x7b' :: (bs ++ text ++ ['\x7d']), .map (htext.behindBlanks hbs), ?_⟩
        rw [eq_of_beq hbrace, hcs, hrest]
        simp
    · -- a name or a number
      split at h
      · next hname =>
        cases h
        exact exists_name hname
      · obtain ⟨text, htext, heq⟩ := isNumber_of_number h
        exact ⟨text, .number htext, heq⟩

theorem readsItems_succ (hvalues : ReadsValues fuel) (hitems : ReadsItems fuel) : ReadsItems (fuel + 1) := by
  intro cs ds rest h
  rw [readItems] at h
  obtain ⟨⟨d, more⟩, hd, h⟩ := exists_of_bind_eq_ok h
  obtain ⟨value, hvalue, hcs⟩ := hvalues _ _ _ hd
  obtain ⟨after, hafter, hmore⟩ := exists_skipBlanks more
  dsimp only at h
  split at h
  · next hclose =>
    cases h
    refine ⟨value ++ after, .last isBlanks_nil hvalue hafter, ?_⟩
    rw [hcs, hmore, hclose]
    simp
  · next hcomma =>
    obtain ⟨⟨ds, behind⟩, hds, heq⟩ := exists_of_bind_eq_ok h
    cases heq
    obtain ⟨items, hitems, hrest⟩ := hitems _ _ _ hds
    obtain ⟨bs, hbs, hblanks⟩ := exists_of_skipBlanks hrest
    refine ⟨value ++ (after ++ ',' :: (bs ++ items)), .more isBlanks_nil hvalue hafter (hitems.behindBlanks hbs), ?_⟩
    rw [hcs, hmore, hcomma, hblanks]
    simp
  · cases h

theorem readsEntries_succ (hvalues : ReadsValues fuel) (hentries : ReadsEntries fuel) : ReadsEntries (fuel + 1) := by
  intro cs es rest h
  unfold readEntries at h
  split at h
  · obtain ⟨⟨k, behindKey⟩, hkey, h⟩ := exists_of_bind_eq_ok h
    obtain ⟨key, hcs, hchars⟩ := isChars_of_stringBody hkey
    obtain ⟨left, hleft, hbehindKey⟩ := exists_skipBlanks behindKey
    dsimp only at h
    split at h
    · next hcolon =>
      obtain ⟨⟨d, more⟩, hd, h⟩ := exists_of_bind_eq_ok h
      obtain ⟨value, hvalue, hbehindColon⟩ := hvalues _ _ _ hd
      obtain ⟨right, hright, hvalueEq⟩ := exists_of_skipBlanks hbehindColon
      obtain ⟨after, hafter, hmore⟩ := exists_skipBlanks more
      dsimp only at h
      split at h
      · next hclose =>
        cases h
        refine ⟨'"' :: (key ++ '"' :: (left ++ ':' :: (right ++ (value ++ after)))),
          .last isBlanks_nil hchars hleft hright hvalue hafter, ?_⟩
        rw [hcs, hbehindKey, hcolon, hvalueEq, hmore, hclose]
        simp
      · next hcomma =>
        obtain ⟨⟨es, behind⟩, hes, heq⟩ := exists_of_bind_eq_ok h
        cases heq
        obtain ⟨entries, hentries, hrest⟩ := hentries _ _ _ hes
        obtain ⟨bs, hbs, hblanks⟩ := exists_of_skipBlanks hrest
        refine ⟨'"' :: (key ++ '"' :: (left ++ ':' :: (right ++ (value ++ (after ++ ',' :: (bs ++ entries)))))),
          .more isBlanks_nil hchars hleft hright hvalue hafter (hentries.behindBlanks hbs), ?_⟩
        rw [hcs, hbehindKey, hcolon, hvalueEq, hmore, hcomma, hblanks]
        simp
      · cases h
    · cases h
  · cases h

end Step

/-- **What is read is a value**, and so are the items and the entries in it. -/
theorem readsAll (fuel : Nat) : ReadsValues fuel ∧ ReadsItems fuel ∧ ReadsEntries fuel := by
  induction fuel with
  | zero =>
    refine ⟨fun cs d rest h => ?_, fun cs ds rest h => ?_, fun cs es rest h => ?_⟩
    · rw [readValue] at h; cases h
    · rw [readItems] at h; cases h
    · rw [readEntries] at h; cases h
  | succ fuel ih =>
    obtain ⟨hvalues, hitems, hentries⟩ := ih
    exact ⟨readsValues_succ hitems hentries, readsItems_succ hvalues hitems, readsEntries_succ hvalues hentries⟩

/-- **Every text that is read is JSON.** -/
theorem isText_of_read {cs : List Char} {d : Document} (h : read {} cs = .ok d) : IsText cs := by
  rw [read] at h
  split_ifs at h
  obtain ⟨before, hbefore, hcs⟩ := exists_skipBlanks cs
  split at h
  · cases h
  · next value rest hvalue =>
    obtain ⟨text, htext, hrest⟩ := (readsAll _).1 _ _ _ hvalue
    obtain ⟨after, hafter, heq⟩ := exists_skipBlanks rest
    split at h
    · next hend =>
      refine ⟨before, text, after, hbefore, htext, hafter, ?_⟩
      rw [hcs, hrest, heq, hend]
      simp
    · cases h

end HandlerComplexity.Json
