/-
# Patterns

A pattern describes a set of texts: regular expressions over sets of characters, as data.
`Matches p w` says that the text `w` is described by `p`, and it is the only meaning a pattern
has.

A pattern is run by derivatives.  `p.derivative c` describes the texts that complete `c` to a
text of `p` (`matches_derivative_iff`), so reading a text character by character needs no
other state than a pattern, and the characters read so far are a text of `p` when what is left
of `p` accepts the empty text (`acceptsEmpty_iff`).

The constructors `chain` and `choice` simplify as they build.  They turn a pattern that has
lost its last text into `never`, so "no text can follow" is a test on the constructor.
-/

namespace UsageReport

/-! ## 1. Sets of characters -/

/-- The characters inside some intervals, or, if `negated`, those outside of all. -/
structure CharSet where
  negated : Bool
  intervals : List (Char × Char)
deriving DecidableEq

namespace CharSet

def contains (s : CharSet) (c : Char) : Bool :=
  (s.intervals.any fun i => decide (i.1 ≤ c) && decide (c ≤ i.2)) != s.negated

/-- The characters of a list. -/
def anyOf (cs : List Char) : CharSet := ⟨false, cs.map fun c => (c, c)⟩

/-- The characters that are not in a list. -/
def noneOf (cs : List Char) : CharSet := ⟨true, cs.map fun c => (c, c)⟩

/-- The characters of some intervals, ends included. -/
def within (intervals : List (Char × Char)) : CharSet := ⟨false, intervals⟩

end CharSet

/-! ## 2. Patterns and what they match -/

/-- A description of a set of texts. -/
inductive Pattern where
  /-- No text. -/
  | never
  /-- The empty text. -/
  | empty
  /-- One character of a set. -/
  | one (set : CharSet)
  /-- A text of the first, followed by one of the second. -/
  | seq (first second : Pattern)
  /-- A text of either. -/
  | either (left right : Pattern)
  /-- Any number of texts of the body, one after the other. -/
  | many (body : Pattern)
deriving DecidableEq

namespace Pattern

/-- The text is one of those that the pattern describes. -/
inductive Matches : Pattern → List Char → Prop where
  | empty : Matches .empty []
  | one {set : CharSet} {c : Char} : set.contains c = true → Matches (.one set) [c]
  | seq {p q : Pattern} {xs ys : List Char} :
      Matches p xs → Matches q ys → Matches (.seq p q) (xs ++ ys)
  | left {p q : Pattern} {xs : List Char} : Matches p xs → Matches (.either p q) xs
  | right {p q : Pattern} {xs : List Char} : Matches q xs → Matches (.either p q) xs
  | stop {p : Pattern} : Matches (.many p) []
  | more {p : Pattern} {xs ys : List Char} :
      Matches p xs → Matches (.many p) ys → Matches (.many p) (xs ++ ys)

/-! ## 3. Derived forms -/

/-- The given character. -/
def char (c : Char) : Pattern := .one (CharSet.anyOf [c])

/-- The given text. -/
def text : List Char → Pattern
  | [] => .empty
  | [c] => char c
  | c :: cs => .seq (char c) (text cs)

/-- A text of the pattern, or nothing. -/
def optional (p : Pattern) : Pattern := .either p .empty

/-- One or more texts of the pattern. -/
def repeated (p : Pattern) : Pattern := .seq p (.many p)

/-! ## 4. Running a pattern -/

/-- Whether nothing is left to describe. -/
def isNever : Pattern → Bool
  | .never => true
  | _ => false

/-- Whether the empty text is one of its texts. -/
def acceptsEmpty : Pattern → Bool
  | .never => false
  | .empty => true
  | .one _ => false
  | .seq p q => p.acceptsEmpty && q.acceptsEmpty
  | .either p q => p.acceptsEmpty || q.acceptsEmpty
  | .many _ => true

/-- One after the other; `never` if either part is. -/
def chain (p q : Pattern) : Pattern :=
  match p, q with
  | .never, _ => .never
  | _, .never => .never
  | .empty, q => q
  | p, q => .seq p q

/-- Either; the other one if one of them is `never`. -/
def choice (p q : Pattern) : Pattern :=
  match p, q with
  | .never, q => q
  | p, .never => p
  | p, q => .either p q

/-- What has to follow after `c`. -/
def derivative (c : Char) : Pattern → Pattern
  | .never => .never
  | .empty => .never
  | .one set => if set.contains c then .empty else .never
  | .seq p q =>
    if p.acceptsEmpty then choice (chain (p.derivative c) q) (q.derivative c)
    else chain (p.derivative c) q
  | .either p q => choice (p.derivative c) (q.derivative c)
  | .many p => chain (p.derivative c) (.many p)

/-! ## 5. The two laws -/

theorem not_matches_never {w : List Char} : ¬ Matches .never w := nofun

theorem matches_empty_iff {w : List Char} : Matches .empty w ↔ w = [] := by
  constructor
  · rintro ⟨⟩; rfl
  · rintro rfl; exact .empty

theorem matches_one_iff {set : CharSet} {w : List Char} :
    Matches (.one set) w ↔ ∃ c, set.contains c = true ∧ w = [c] := by
  constructor
  · intro h
    cases h with
    | one hc => exact ⟨_, hc, rfl⟩
  · rintro ⟨c, hc, rfl⟩; exact .one hc

theorem matches_seq_iff {p q : Pattern} {w : List Char} :
    Matches (.seq p q) w ↔ ∃ xs ys, w = xs ++ ys ∧ Matches p xs ∧ Matches q ys := by
  constructor
  · intro h
    cases h with
    | seq hp hq => exact ⟨_, _, rfl, hp, hq⟩
  · rintro ⟨xs, ys, rfl, hp, hq⟩; exact .seq hp hq

theorem matches_either_iff {p q : Pattern} {w : List Char} :
    Matches (.either p q) w ↔ Matches p w ∨ Matches q w := by
  constructor
  · intro h
    cases h with
    | left h => exact Or.inl h
    | right h => exact Or.inr h
  · rintro (h | h)
    · exact .left h
    · exact .right h

/-- The first step of a repetition that reads something reads something. -/
theorem matches_many_cons_iff {p : Pattern} {c : Char} {w : List Char} :
    Matches (.many p) (c :: w) ↔
      ∃ xs ys, w = xs ++ ys ∧ Matches p (c :: xs) ∧ Matches (.many p) ys := by
  constructor
  · intro h
    generalize hr : Pattern.many p = r at h
    generalize hw : c :: w = v at h
    induction h with
    | @more q xs ys hp hs _ ih =>
      cases hr
      cases xs with
      | nil => exact ih rfl hw
      | cons d xs =>
        rw [List.cons_append, List.cons.injEq] at hw
        obtain ⟨rfl, rfl⟩ := hw
        exact ⟨xs, ys, rfl, hp, hs⟩
    | stop => exact absurd hw (by simp)
    | empty => exact absurd hr (by simp)
    | one => exact absurd hr (by simp)
    | seq => exact absurd hr (by simp)
    | left => exact absurd hr (by simp)
    | right => exact absurd hr (by simp)
  · rintro ⟨xs, ys, rfl, hp, hs⟩
    exact .more hp hs

theorem matches_chain_iff {p q : Pattern} {w : List Char} :
    Matches (chain p q) w ↔ Matches (.seq p q) w := by
  unfold chain
  split
  · simp [matches_seq_iff, not_matches_never]
  · simp [matches_seq_iff, not_matches_never]
  · simp only [matches_seq_iff, matches_empty_iff]
    constructor
    · intro h; exact ⟨[], w, rfl, rfl, h⟩
    · rintro ⟨xs, ys, rfl, rfl, h⟩; exact h
  · rfl

theorem matches_choice_iff {p q : Pattern} {w : List Char} :
    Matches (choice p q) w ↔ Matches p w ∨ Matches q w := by
  unfold choice
  split
  · simp [not_matches_never]
  · simp [not_matches_never]
  · exact matches_either_iff

/-- **The empty text.**  `acceptsEmpty` decides whether it is among the texts of a pattern. -/
theorem acceptsEmpty_iff {p : Pattern} : p.acceptsEmpty = true ↔ Matches p [] := by
  induction p with
  | never => simp [acceptsEmpty, not_matches_never]
  | empty => simp [acceptsEmpty, matches_empty_iff]
  | one set => simp [acceptsEmpty, matches_one_iff]
  | seq p q ihp ihq =>
    rw [acceptsEmpty, Bool.and_eq_true, ihp, ihq, matches_seq_iff]
    constructor
    · rintro ⟨hp, hq⟩; exact ⟨[], [], rfl, hp, hq⟩
    · rintro ⟨xs, ys, h, hp, hq⟩
      obtain ⟨rfl, rfl⟩ := List.append_eq_nil_iff.mp h.symm
      exact ⟨hp, hq⟩
  | either p q ihp ihq =>
    rw [acceptsEmpty, Bool.or_eq_true, ihp, ihq, matches_either_iff]
  | many p _ => exact ⟨fun _ => .stop, fun _ => rfl⟩

/-- **The derivative.**  It describes exactly the texts that complete `c`. -/
theorem matches_derivative_iff {p : Pattern} {c : Char} {w : List Char} :
    Matches (p.derivative c) w ↔ Matches p (c :: w) := by
  induction p generalizing w with
  | never => simp [derivative, not_matches_never]
  | empty => simp [derivative, not_matches_never, matches_empty_iff]
  | one set =>
    rw [matches_one_iff]
    by_cases hc : set.contains c = true
    · rw [derivative, if_pos hc, matches_empty_iff]
      constructor
      · rintro rfl; exact ⟨c, hc, rfl⟩
      · rintro ⟨d, -, hd⟩; exact (List.cons.inj hd).2
    · rw [derivative, if_neg hc]
      constructor
      · exact fun h => absurd h not_matches_never
      · rintro ⟨d, hd, he⟩
        obtain ⟨rfl, -⟩ := List.cons.inj he
        exact absurd hd hc
  | seq p q ihp ihq =>
    have hfirst : Matches (chain (p.derivative c) q) w ↔
        ∃ xs ys, w = xs ++ ys ∧ Matches p (c :: xs) ∧ Matches q ys := by
      rw [matches_chain_iff, matches_seq_iff]
      simp only [ihp]
    have hsplit : Matches (.seq p q) (c :: w) ↔
        (∃ xs ys, w = xs ++ ys ∧ Matches p (c :: xs) ∧ Matches q ys) ∨
          (Matches p [] ∧ Matches q (c :: w)) := by
      rw [matches_seq_iff]
      constructor
      · rintro ⟨xs, ys, h, hp, hq⟩
        cases xs with
        | nil => exact Or.inr ⟨hp, by simpa [h] using hq⟩
        | cons d xs =>
          rw [List.cons_append, List.cons.injEq] at h
          obtain ⟨rfl, rfl⟩ := h
          exact Or.inl ⟨xs, ys, rfl, hp, hq⟩
      · rintro (⟨xs, ys, rfl, hp, hq⟩ | ⟨hp, hq⟩)
        · exact ⟨c :: xs, ys, rfl, hp, hq⟩
        · exact ⟨[], c :: w, rfl, hp, hq⟩
    rw [hsplit, ← hfirst, derivative]
    by_cases he : p.acceptsEmpty = true
    · rw [if_pos he, matches_choice_iff, ihq]
      simp [acceptsEmpty_iff.mp he]
    · rw [if_neg he]
      exact ⟨Or.inl, fun h => h.elim id fun h => absurd (acceptsEmpty_iff.mpr h.1) he⟩
  | either p q ihp ihq =>
    rw [derivative, matches_choice_iff, matches_either_iff, ihp, ihq]
  | many p ih =>
    rw [derivative, matches_chain_iff, matches_seq_iff, matches_many_cons_iff]
    simp only [ih]

end Pattern
end UsageReport
