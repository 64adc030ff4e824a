import HandlerComplexity.Text.Point

/-!
# Glob patterns

In a pattern `*` stands for any text, `?` for any character, and `[...]` for one character of a set;
everything else stands for itself. A set may list characters and ranges, `!` at its front takes the
complement, and a bracket that is never closed stands for itself. A range whose upper end comes before
its lower end is struck from its set together with both ends; what then stands at the front of the set
is read as if it had been written there. A pattern may hold any code points, and they are ordered by
their numbers.

* `Glob.parse`: the pieces of a pattern.
* `Glob.Matches`: what it means for pieces to match a text.
* `Glob.run`: the same by the positions of the text that can be reached after each piece;
  `Glob.run_iff_matches`: it decides whether the pieces match.
-/

namespace HandlerComplexity.Glob

open Text (Point Points)

/-- A set of characters. -/
structure CharSet where
  negated : Bool
  singles : Points
  ranges : List (Point × Point)
deriving DecidableEq, Repr

def CharSet.contains (s : CharSet) (c : Char) : Bool :=
  s.negated != (s.singles.contains (.char c) ||
    s.ranges.any fun r => r.1.toNat ≤ c.toNat && c.toNat ≤ r.2.toNat)

inductive Piece
  | star
  | any
  | never
  | literal (p : Point)
  | oneOf (set : CharSet)
deriving DecidableEq, Repr

/-- Whether the piece, other than a star, stands for a character. -/
def Piece.accepts : Piece → Char → Bool
  | star, _ => false
  | any, _ => true
  | never, _ => false
  | literal p, c => p = .char c
  | oneOf set, c => set.contains c

/-! ## Reading a pattern -/

/-- How many characters at the front of a bracket cannot close it: `!`, and a closing bracket at the
very front or right after `!`. -/
def frontLength : Points → Nat
  | .char '!' :: .char ']' :: _ => 2
  | .char '!' :: _ => 1
  | .char ']' :: _ => 1
  | _ => 0

/-- The inside of a bracket and what follows it, if it is closed. -/
def bracket? (ps : Points) : Option (Points × Points) :=
  let front := frontLength ps
  match (ps.drop front).dropWhile (· != .char ']') with
  | [] => none
  | _ :: rest => some (ps.take front ++ (ps.drop front).takeWhile (· != .char ']'), rest)

theorem length_lt_of_bracket? {ps inside rest : Points} (h : bracket? ps = some (inside, rest)) :
    rest.length < ps.length := by
  have hle := (List.dropWhile_suffix (l := ps.drop (frontLength ps)) (· != .char ']')).length_le
  simp only [bracket?] at h
  split at h
  · simp at h
  · rename_i heq
    rw [heq, List.length_cons, List.length_drop] at hle
    simp only [Option.some.injEq, Prod.mk.injEq] at h
    rw [← h.2]
    omega

/-- Cut the inside of a bracket at the hyphens that can join a range: the first `skip` characters
are passed over. A hyphen at the very end belongs to the last chunk. -/
def chunks (skip : Nat) (ps : Points) : List Points :=
  match (ps.drop skip).findIdx? (· == .char '-') with
  | none => [ps]
  | some i =>
    if skip + i + 1 < ps.length then
      ps.take (skip + i) :: chunks 2 (ps.drop (skip + i + 1))
    else [ps]
termination_by ps.length
decreasing_by
  rw [List.length_drop]
  omega

/-- Strike the ranges that are empty: the ends of the two chunks go, and the chunks become one. -/
def strikeEmpty : List Points → List Points
  | [] => []
  | c :: cs =>
    match strikeEmpty cs with
    | [] => [c]
    | d :: ds =>
      match c.getLast?, d.head? with
      | some a, some b => if b.toNat < a.toNat then (c.dropLast ++ d.tail) :: ds else c :: d :: ds
      | _, _ => c :: d :: ds

/-- The ranges between neighbouring chunks. -/
def joins : List Points → List (Point × Point)
  | c :: d :: cs =>
    match c.getLast?, d.head? with
    | some a, some b => (a, b) :: joins (d :: cs)
    | _, _ => joins (d :: cs)
  | _ => []

/-- The set of the characters of chunks and of the ranges between them. Behind an empty chunk no range
begins, so the hyphen there stands for itself. -/
def chunkSet (negated : Bool) : List Points → CharSet
  | [] :: c :: cs => ⟨negated, .char '-' :: (c :: cs).flatten, joins (c :: cs)⟩
  | cs => ⟨negated, cs.flatten, joins cs⟩

/-- The set written inside a bracket. -/
def setPiece (inside : Points) : Piece :=
  match strikeEmpty (chunks (if inside.head? = some (.char '!') then 2 else 1) inside) with
  | [[]] => .never
  | [[.char '!']] => .any
  | (.char '!' :: c) :: cs => .oneOf (chunkSet true (c :: cs))
  | cs => .oneOf (chunkSet false cs)

/-- The pieces of a pattern. -/
def parse : Points → List Piece
  | [] => []
  | .char '*' :: ps => .star :: parse ps
  | .char '?' :: ps => .any :: parse ps
  | .char '[' :: ps =>
    match _h : bracket? ps with
    | none => .literal (.char '[') :: parse ps
    | some (inside, rest) => setPiece inside :: parse rest
  | p :: ps => .literal p :: parse ps
termination_by ps => ps.length
decreasing_by
  · simp
  · simp
  · simp
  · exact Nat.lt_succ_of_lt (length_lt_of_bracket? _h)
  · simp

/-! ## Matching -/

/-- The pieces match all of a text. -/
inductive Matches : List Piece → List Char → Prop
  | nil : Matches [] []
  | one {p : Piece} {ps : List Piece} {c : Char} {cs : List Char} :
      p.accepts c = true → Matches ps cs → Matches (p :: ps) (c :: cs)
  | skip {ps : List Piece} {cs : List Char} : Matches ps cs → Matches (.star :: ps) cs
  | take {ps : List Piece} {c : Char} {cs : List Char} :
      Matches (.star :: ps) cs → Matches (.star :: ps) (c :: cs)

/-- From some position on, every later one can be reached. -/
def spread (found : Bool) : List Bool → List Bool
  | [] => []
  | r :: rs => (found || r) :: spread (found || r) rs

/-- The positions that can be reached after one more piece. -/
def advance (cs : List Char) (reach : List Bool) : Piece → List Bool
  | .star => spread false reach
  | p => false :: List.zipWith (fun r c => r && p.accepts c) reach cs

/-- Whether the pieces match all of a text: the end can be reached from the start. -/
def run (ps : List Piece) (cs : List Char) : Bool :=
  (ps.foldl (advance cs) (true :: List.replicate cs.length false)).getLastD false

/-! ### What can be reached

A position can be reached by way of the pieces read so far; the pieces still to come match the text from
one of these positions on.
-/

theorem matches_star_iff {ps : List Piece} {cs : List Char} :
    Matches (.star :: ps) cs ↔ ∃ k, Matches ps (cs.drop k) := by
  constructor
  · intro h
    generalize hstar : Piece.star :: ps = pieces at h
    induction h with
    | nil => cases hstar
    | one haccepts _ =>
      cases hstar
      cases haccepts
    | skip h =>
      cases hstar
      exact ⟨0, h⟩
    | take _ ih =>
      obtain ⟨k, hk⟩ := ih hstar
      exact ⟨k + 1, hk⟩
  · rintro ⟨k, hk⟩
    induction k generalizing cs with
    | zero => exact .skip hk
    | succ k ih =>
      cases cs with
      | nil => exact .skip hk
      | cons c cs => exact .take (ih hk)

theorem matches_cons_iff {p : Piece} (hp : p ≠ .star) {ps : List Piece} {cs : List Char} :
    Matches (p :: ps) cs ↔ ∃ c rest, cs = c :: rest ∧ p.accepts c = true ∧ Matches ps rest := by
  constructor
  · intro h
    cases h with
    | one haccepts h => exact ⟨_, _, rfl, haccepts, h⟩
    | skip => exact absurd rfl hp
    | take => exact absurd rfl hp
  · rintro ⟨c, rest, rfl, haccepts, h⟩
    exact .one haccepts h

theorem length_spread (found : Bool) (reach : List Bool) : (spread found reach).length = reach.length := by
  induction reach generalizing found with
  | nil => rfl
  | cons r rs ih => rw [spread, List.length_cons, List.length_cons, ih]

theorem getElem?_spread {found : Bool} {reach : List Bool} {j : Nat} :
    (spread found reach)[j]? = some true ↔
      j < reach.length ∧ (found = true ∨ ∃ i, i ≤ j ∧ reach[i]? = some true) := by
  induction reach generalizing found j with
  | nil => simp [spread]
  | cons r rs ih =>
    cases j with
    | zero => simp [spread]
    | succ j =>
      rw [spread, List.getElem?_cons_succ, ih, List.length_cons, Bool.or_eq_true]
      refine and_congr (by omega) ?_
      constructor
      · rintro ((hfound | hr) | ⟨i, hi, hreach⟩)
        · exact .inl hfound
        · exact .inr ⟨0, by omega, by rw [hr]; rfl⟩
        · exact .inr ⟨i + 1, by omega, hreach⟩
      · rintro (hfound | ⟨i, hi, hreach⟩)
        · exact .inl (.inl hfound)
        · cases i with
          | zero => exact .inl (.inr (Option.some.inj hreach))
          | succ i => exact .inr ⟨i, by omega, hreach⟩

/-- One step for each position of the text, and one for its end. -/
theorem length_advance {cs : List Char} {reach : List Bool} (h : reach.length = cs.length + 1) (p : Piece) :
    (advance cs reach p).length = cs.length + 1 := by
  cases p <;> simp [advance, length_spread, h]

theorem getElem?_advance {p : Piece} (hp : p ≠ .star) {cs : List Char} {reach : List Bool} {j : Nat} :
    (advance cs reach p)[j]? = some true ↔
      ∃ i, j = i + 1 ∧ reach[i]? = some true ∧ ∃ c, cs[i]? = some c ∧ p.accepts c = true := by
  have hadvance : advance cs reach p = false :: List.zipWith (fun r c => r && p.accepts c) reach cs := by
    cases p with
    | star => exact absurd rfl hp
    | _ => rfl
  rw [hadvance]
  cases j with
  | zero => simp
  | succ i =>
    simp only [List.getElem?_cons_succ, List.getElem?_zipWith_eq_some, Bool.and_eq_true, Nat.add_right_cancel_iff]
    constructor
    · rintro ⟨r, c, hr, hc, rfl, haccepts⟩
      exact ⟨i, rfl, hr, c, hc, haccepts⟩
    · rintro ⟨_, rfl, hr, c, hc, haccepts⟩
      exact ⟨true, c, hr, hc, rfl, haccepts⟩

/-- **One more piece**: the pieces match from a position that can be reached iff those behind the first one
match from a position that can be reached after it. -/
theorem exists_reach_advance {cs : List Char} {reach : List Bool} (h : reach.length = cs.length + 1) (p : Piece)
    (ps : List Piece) :
    (∃ j, (advance cs reach p)[j]? = some true ∧ Matches ps (cs.drop j)) ↔
      ∃ i, reach[i]? = some true ∧ Matches (p :: ps) (cs.drop i) := by
  by_cases hp : p = .star
  · subst hp
    simp only [advance, getElem?_spread, Bool.false_eq_true, false_or, matches_star_iff, List.drop_drop]
    constructor
    · rintro ⟨j, ⟨-, i, hi, hreach⟩, hmatches⟩
      exact ⟨i, hreach, j - i, by rwa [Nat.add_sub_cancel' hi]⟩
    · rintro ⟨i, hreach, k, hmatches⟩
      -- a star that takes more than there is takes all there is
      have hi : i < reach.length := (List.getElem?_eq_some_iff.mp hreach).1
      refine ⟨min (i + k) cs.length, ⟨by omega, i, by omega, hreach⟩, ?_⟩
      rcases Nat.le_total (i + k) cs.length with hle | hle
      · rwa [Nat.min_eq_left hle]
      · rw [List.drop_of_length_le hle] at hmatches
        rwa [Nat.min_eq_right hle, List.drop_length]
  · simp only [getElem?_advance hp, matches_cons_iff hp]
    constructor
    · rintro ⟨_, ⟨i, rfl, hreach, c, hc, haccepts⟩, hmatches⟩
      obtain ⟨hi, rfl⟩ := List.getElem?_eq_some_iff.mp hc
      exact ⟨i, hreach, _, _, List.drop_eq_getElem_cons hi, haccepts, hmatches⟩
    · rintro ⟨i, hreach, c, rest, hrest, haccepts, hmatches⟩
      have hc : cs[i]? = some c := by rw [← List.head?_drop, hrest, List.head?_cons]
      refine ⟨i + 1, ⟨i, rfl, hreach, c, hc, haccepts⟩, ?_⟩
      rwa [← List.tail_drop, hrest, List.tail_cons]

/-- The end of the text is reached iff the pieces still to come match from a position reached so far. The
induction is on these pieces, with any positions reached. -/
theorem getLastD_foldl_advance {cs : List Char} {reach : List Bool} (h : reach.length = cs.length + 1)
    (ps : List Piece) :
    (ps.foldl (advance cs) reach).getLastD false = true ↔
      ∃ i, reach[i]? = some true ∧ Matches ps (cs.drop i) := by
  induction ps generalizing reach with
  | nil =>
    rw [List.foldl_nil, List.getLastD_eq_getLast?, List.getLast?_eq_getElem?, h, Nat.add_sub_cancel]
    constructor
    · intro hlast
      refine ⟨cs.length, ?_, ?_⟩
      · cases hreach : reach[cs.length]? with
        | none => simp [hreach] at hlast
        | some r => simpa [hreach] using hlast
      · rw [List.drop_length]
        exact .nil
    · rintro ⟨i, hreach, hmatches⟩
      -- only the empty text is matched by nothing, and there is one position in front of it
      generalize hrest : cs.drop i = rest at hmatches
      cases hmatches
      have hle := List.drop_eq_nil_iff.mp hrest
      have hlt := (List.getElem?_eq_some_iff.mp hreach).1
      obtain rfl : i = cs.length := by omega
      rw [hreach]
      rfl
  | cons p ps ih =>
    rw [List.foldl_cons, ih (length_advance h p), exists_reach_advance h]

/-- **The run decides whether the pieces match.** -/
theorem run_iff_matches {ps : List Piece} {cs : List Char} : run ps cs = true ↔ Matches ps cs := by
  rw [run, getLastD_foldl_advance (by simp)]
  constructor
  · rintro ⟨i, hreach, hmatches⟩
    cases i with
    | zero => exact hmatches
    | succ i => simp [List.getElem?_replicate] at hreach
  · exact fun h => ⟨0, rfl, h⟩

instance (ps : List Piece) (cs : List Char) : Decidable (Matches ps cs) :=
  decidable_of_decidable_of_iff run_iff_matches

/-- Whether a pattern matches all of a text. -/
def matchesText (pattern : Points) (text : String) : Bool :=
  run (parse pattern) text.toList

theorem matchesText_iff {pattern : Points} {text : String} :
    matchesText pattern text = true ↔ Matches (parse pattern) text.toList := run_iff_matches

/-! A range that is struck brings the mark of the complement to the front, and the hyphen behind it stands
for itself. -/

example : setPiece ("b-a!-z".toList.map .char) = .oneOf ⟨true, "-z".toList.map .char, []⟩ := by cbv

end HandlerComplexity.Glob
