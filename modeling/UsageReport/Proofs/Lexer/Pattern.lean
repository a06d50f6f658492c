/-
# Patterns and first characters

A text that two patterns describe begins with a character that both of them can begin with.  So it
is enough to look at the sets of first characters (`Pattern.firsts`): if no two of them have a
character in common, then the patterns have no text in common, the empty one apart
(`Pattern.not_matches_of_apart`).  Sets are lists of intervals, and of two intervals one can see
at their ends whether they meet (`CharSet.apart`).
-/
import UsageReport.Lexer.Grammar

namespace UsageReport

/-! ## 1. Sets of characters -/

namespace CharSet

theorem contains_anyOf_iff {cs : List Char} {c : Char} :
    (anyOf cs).contains c = true ↔ c ∈ cs := by
  simp only [contains, anyOf, List.any_map, Bool.bne_false, List.any_eq_true,
    Function.comp_apply, Bool.and_eq_true, decide_eq_true_eq]
  constructor
  · rintro ⟨d, hd, h1, h2⟩
    rwa [Char.le_antisymm h2 h1]
  · exact fun h => ⟨c, h, Char.le_refl c, Char.le_refl c⟩

theorem contains_noneOf_iff {cs : List Char} {c : Char} :
    (noneOf cs).contains c = true ↔ c ∉ cs := by
  rw [← contains_anyOf_iff]
  simp [contains, anyOf, noneOf]

/-- Whether no interval of the one set meets an interval of the other. -/
def apart (s t : CharSet) : Bool :=
  !s.negated && !t.negated &&
    s.intervals.all fun i => t.intervals.all fun j => decide (i.2 < j.1) || decide (j.2 < i.1)

/-- Sets that are apart have no character in common. -/
theorem not_contains_of_apart {s t : CharSet} {c : Char} (h : s.apart t = true)
    (hs : s.contains c = true) : ¬ t.contains c = true := by
  intro ht
  simp only [apart, Bool.and_eq_true, Bool.not_eq_true', List.all_eq_true, Bool.or_eq_true,
    decide_eq_true_eq] at h
  obtain ⟨⟨hsn, htn⟩, hends⟩ := h
  simp only [contains, hsn, htn, Bool.bne_false, List.any_eq_true, Bool.and_eq_true,
    decide_eq_true_eq] at hs ht
  obtain ⟨i, hi, hi1, hi2⟩ := hs
  obtain ⟨j, hj, hj1, hj2⟩ := ht
  rcases hends i hi j hj with hlt | hlt
  · exact Char.not_le.mpr hlt (Char.le_trans hj1 hi2)
  · exact Char.not_le.mpr hlt (Char.le_trans hi1 hj2)

end CharSet

/-! ## 2. First characters -/

namespace Pattern

/-- The sets of characters that a text of a pattern can begin with. -/
def firsts : Pattern → List CharSet
  | .never => []
  | .empty => []
  | .one set => [set]
  | .seq p q => if p.acceptsEmpty then p.firsts ++ q.firsts else p.firsts
  | .either p q => p.firsts ++ q.firsts
  | .many p => p.firsts

/-- A text of a pattern begins with one of its first characters. -/
theorem exists_mem_firsts {p : Pattern} {c : Char} {w : List Char} (h : Matches p (c :: w)) :
    ∃ set ∈ p.firsts, set.contains c = true := by
  induction p generalizing w with
  | never => exact absurd h not_matches_never
  | empty => cases matches_empty_iff.mp h
  | one set =>
    obtain ⟨d, hd, heq⟩ := matches_one_iff.mp h
    cases heq
    exact ⟨set, List.mem_singleton_self set, hd⟩
  | seq p q ihp ihq =>
    obtain ⟨xs, ys, heq, hp, hq⟩ := matches_seq_iff.mp h
    rw [firsts]
    cases xs with
    | cons d xs =>
      cases heq
      obtain ⟨set, hset, hc⟩ := ihp hp
      refine ⟨set, ?_, hc⟩
      split
      · exact List.mem_append_left _ hset
      · exact hset
    | nil =>
      rw [List.nil_append] at heq
      rw [← heq] at hq
      obtain ⟨set, hset, hc⟩ := ihq hq
      rw [if_pos (acceptsEmpty_iff.mpr hp)]
      exact ⟨set, List.mem_append_right _ hset, hc⟩
  | either p q ihp ihq =>
    rcases matches_either_iff.mp h with hp | hq
    · obtain ⟨set, hset, hc⟩ := ihp hp
      exact ⟨set, List.mem_append_left _ hset, hc⟩
    · obtain ⟨set, hset, hc⟩ := ihq hq
      exact ⟨set, List.mem_append_right _ hset, hc⟩
  | many p ih =>
    obtain ⟨xs, ys, -, hp, -⟩ := matches_many_cons_iff.mp h
    exact ih hp

/-- Whether no text of the one pattern begins as a text of the other does. -/
def apart (p q : Pattern) : Bool := p.firsts.all fun s => q.firsts.all s.apart

/-- **Patterns that are apart** have no text in common that has a first character. -/
theorem not_matches_of_apart {p q : Pattern} {c : Char} {w : List Char} (h : p.apart q = true)
    (hp : Matches p (c :: w)) : ¬ Matches q (c :: w) := by
  intro hq
  obtain ⟨s, hs, hsc⟩ := exists_mem_firsts hp
  obtain ⟨t, ht, htc⟩ := exists_mem_firsts hq
  have hst : s.apart t = true := List.all_eq_true.mp (List.all_eq_true.mp h s hs) t ht
  exact CharSet.not_contains_of_apart hst hsc htc

/-! ## 3. Fixed texts and repetitions -/

/-- The pattern of a text describes this text alone. -/
theorem matches_text_iff {cs w : List Char} : Matches (text cs) w ↔ w = cs := by
  induction cs generalizing w with
  | nil => exact matches_empty_iff
  | cons c cs ih =>
    have hchar {v : List Char} : Matches (char c) v ↔ v = [c] := by
      simp [char, matches_one_iff, CharSet.contains_anyOf_iff]
    cases cs with
    | nil => exact hchar
    | cons d cs =>
      have htext : text (c :: d :: cs) = .seq (char c) (text (d :: cs)) := rfl
      rw [htext, matches_seq_iff]
      simp only [hchar, ih]
      constructor
      · rintro ⟨xs, ys, rfl, rfl, rfl⟩
        rfl
      · rintro rfl
        exact ⟨[c], d :: cs, rfl, rfl, rfl⟩

/-- Repeating a set of characters describes the texts over it. -/
theorem matches_many_one_iff {set : CharSet} {w : List Char} :
    Matches (.many (.one set)) w ↔ ∀ c ∈ w, set.contains c = true := by
  induction w with
  | nil => exact iff_of_true .stop (by simp)
  | cons c w ih =>
    rw [matches_many_cons_iff, List.forall_mem_cons, ← ih]
    constructor
    · rintro ⟨xs, ys, rfl, hone, hmany⟩
      obtain ⟨d, hd, heq⟩ := matches_one_iff.mp hone
      cases heq
      exact ⟨hd, hmany⟩
    · rintro ⟨hc, hw⟩
      exact ⟨[], w, rfl, .one hc, hw⟩

end Pattern
end UsageReport
