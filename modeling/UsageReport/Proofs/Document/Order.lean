/-
# Order of offsets and order of positions

Positions are compared line first and, on one line, by the column.  The library does so in three
ways: by `<` and `≤` of positions, by `compare`, and in `Span.contains`, which goes through the ends
of a span one by one and looks at a column only on the first and on the last line.  All three agree
(`Position.compare_eq_lt_iff`, `Span.contains_iff`), also for a span whose end is before its start.

Offsets are compared as numbers, and the position of an offset is found by a search.  A later offset
has a later position (`LineIndex.WellFormed.position?_lt_iff`), so a span holds the positions of
just those offsets that its range holds, its end included (`span?_keeps_order`).

This is about every document that there can be: the index of a text is built in words of 32 bits,
and no text of 4 GiB or more has one (`WordIndex.isSome_ofBytes_iff`).
-/
import UsageReport.Proofs.Document.Span
import UsageReport.Proofs.Text.WordIndex

namespace UsageReport

/-! ## 1. Positions -/

namespace Position

variable {a b : Position}

/-- The order of positions, in numbers. -/
theorem le_iff_toNat : a ≤ b ↔
    a.line.toNat < b.line.toNat ∨
      a.line.toNat = b.line.toNat ∧ a.column.toNat ≤ b.column.toNat := by
  rw [← UInt32.lt_iff_toNat_lt, ← UInt32.le_iff_toNat_le, UInt32.toNat_inj]
  rfl

theorem lt_iff_toNat : a < b ↔
    a.line.toNat < b.line.toNat ∨
      a.line.toNat = b.line.toNat ∧ a.column.toNat < b.column.toNat := by
  rw [← UInt32.lt_iff_toNat_lt, ← UInt32.lt_iff_toNat_lt, UInt32.toNat_inj]
  rfl

/-- Any two positions can be compared. -/
theorem not_lt_iff : ¬ a < b ↔ b ≤ a := by
  rw [lt_iff_toNat, le_iff_toNat]
  omega

theorem le_antisymm (h : a ≤ b) (h' : b ≤ a) : a = b := by
  rw [le_iff_toNat] at h h'
  cases a
  cases b
  rw [mk.injEq, ← UInt32.toNat_inj, ← UInt32.toNat_inj]
  dsimp only at h h'
  omega

/-- **Comparing line by line, then column by column** comes to the order of positions. -/
theorem compare_eq_lt_iff : compare a b = .lt ↔ a < b := by
  change (compare a.line b.line).then (compare a.column b.column) = .lt ↔
    a.line < b.line ∨ a.line = b.line ∧ a.column < b.column
  rw [Ordering.then_eq_lt, Std.compare_eq_lt, Std.compare_eq_lt, Std.compare_eq_iff_eq]

theorem compare_eq_gt_iff : compare a b = .gt ↔ b < a := by
  change (compare a.line b.line).then (compare a.column b.column) = .gt ↔
    b.line < a.line ∨ b.line = a.line ∧ b.column < a.column
  rw [Ordering.then_eq_gt, Std.compare_eq_gt, Std.compare_eq_gt, Std.compare_eq_iff_eq,
    eq_comm (a := a.line)]

end Position

/-- **A span holds the positions from its start to its end.** -/
theorem Span.contains_iff (span : Span) (p : Position) :
    span.contains p = true ↔ span.start ≤ p ∧ p ≤ span.stop := by
  rw [Position.le_iff_toNat, Position.le_iff_toNat]
  simp only [contains, Bool.and_eq_true, Bool.not_eq_true', Bool.or_eq_false_iff,
    Bool.and_eq_false_iff, decide_eq_false_iff_not, beq_eq_false_iff_ne, ne_eq,
    ← UInt32.toNat_inj, UInt32.lt_iff_toNat_lt]
  omega

/-! ## 2. Positions of offsets -/

namespace LineIndex

variable {index : LineIndex} {a b : Nat} {p q : Position}

/-- **The position of an offset is after that of another just if the offset is.**  No two offsets
share a position, as a position leads back to its offset. -/
theorem WellFormed.position?_le_iff (h : index.WellFormed) (hsize : index.length < 2 ^ 32)
    (hp : index.position? a = some p) (hq : index.position? b = some q) : p ≤ q ↔ a ≤ b := by
  refine ⟨fun hpq => ?_, h.position?_mono hsize hp hq⟩
  by_contra hlt
  have hqp : q ≤ p := h.position?_mono hsize hq hp (Nat.le_of_not_le hlt)
  obtain rfl : p = q := Position.le_antisymm hpq hqp
  have ha := (h.position?_eq_some_iff_offset? hsize).mp hp
  have hb := (h.position?_eq_some_iff_offset? hsize).mp hq
  cases ha.symm.trans hb
  exact hlt (Nat.le_refl a)

theorem WellFormed.position?_lt_iff (h : index.WellFormed) (hsize : index.length < 2 ^ 32)
    (hp : index.position? a = some p) (hq : index.position? b = some q) : p < q ↔ a < b := by
  rw [← not_iff_not, Position.not_lt_iff, h.position?_le_iff hsize hq hp, Nat.not_lt]

end LineIndex

/-! ## 3. The main statement -/

namespace Document

variable {d : Document}

/-- **Spans keep the order of offsets.**  Every offset of the text has a position, and a later one
has a later position.  The ranges of the text are those that have a span, whose start is not after
its end, and the span holds the position of an offset just if the offset is between the ends of
the range.  For any span and any position, to be held is to be between the ends of the span, in the
order that compares lines first and then columns. -/
theorem span?_keeps_order (built : (WordIndex.ofBytes (Text.bytes d.text.toList)).isSome) :
    (∀ a b, a ≤ d.length → b ≤ d.length → ∃ p q, d.lines.position? a = some p ∧
      d.lines.position? b = some q ∧ (p < q ↔ a < b)) ∧
    (∀ range, (d.span? range).isSome = d.containsRange range) ∧
    (∀ range span, d.span? range = some span → span.start ≤ span.stop) ∧
    (∀ range offset, d.containsRange range = true → offset ≤ d.length →
      ∃ span p, d.span? range = some span ∧ d.lines.position? offset = some p ∧
        (span.contains p = true ↔ range.start ≤ offset ∧ offset ≤ range.stop)) ∧
    (∀ (span : Span) (p : Position),
      span.contains p = true ↔ span.start ≤ p ∧ p ≤ span.stop) ∧
    ∀ p q : Position, (compare p q = .lt ↔ p < q) ∧ (compare p q = .gt ↔ ¬ p ≤ q) := by
  have hwf : d.lines.WellFormed := LineIndex.wellFormed_ofText d.text
  have small : d.length < 2 ^ 32 := WordIndex.isSome_ofBytes_iff.mp built
  have hposition (offset : Nat) (hle : offset ≤ d.length) :
      ∃ p, d.lines.position? offset = some p :=
    Option.isSome_iff_exists.mp (hwf.isSome_position?_iff.mpr hle)
  refine ⟨?_, ?_, fun range span => start_le_stop_of_span? small, ?_, Span.contains_iff,
    fun p q => ⟨Position.compare_eq_lt_iff, ?_⟩⟩
  · intro a b ha hb
    obtain ⟨p, hp⟩ := hposition a ha
    obtain ⟨q, hq⟩ := hposition b hb
    exact ⟨p, q, hp, hq, hwf.position?_lt_iff small hp hq⟩
  · intro range
    rw [Bool.eq_iff_iff, isSome_span?_iff, containsRange, decide_eq_true_eq]
  · intro range offset hrange hle
    have hstop : range.stop ≤ d.length := of_decide_eq_true hrange
    obtain ⟨span, hspan⟩ := Option.isSome_iff_exists.mp (isSome_span?_iff.mpr hstop)
    obtain ⟨p, hp⟩ := hposition offset hle
    obtain ⟨hfirst, hlast⟩ := span?_eq_some_iff.mp hspan
    refine ⟨span, p, hspan, hp, ?_⟩
    rw [Span.contains_iff, hwf.position?_le_iff small hfirst hp,
      hwf.position?_le_iff small hp hlast]
  · rw [Position.compare_eq_gt_iff, ← Position.not_lt_iff, not_not]

/-- A range that begins inside a character and goes over a newline: its span holds the start of the
second line, and not the end of the text. -/
theorem span?_keeps_order_sample :
    let d : Document := ⟨⟨0⟩, "a.cs", "é\nbc", none⟩
    let range : TextRange := ⟨1, 4, by decide⟩
    ∃ span, d.span? range = some span ∧ span.start ≤ span.stop ∧
      span.contains ⟨1, 0⟩ = true ∧ span.contains ⟨1, 2⟩ = false := by
  intro d range
  have built : (WordIndex.ofBytes (Text.bytes d.text.toList)).isSome :=
    WordIndex.isSome_ofBytes_iff.mpr (by decide)
  obtain ⟨-, -, hordered, hholds, -⟩ := span?_keeps_order built
  obtain ⟨span, p, hspan, hp, hwithin⟩ := hholds range 3 (by decide) (by decide)
  obtain ⟨span', q, hspan', hq, hbeyond⟩ := hholds range 5 (by decide) (by decide)
  cases hspan.symm.trans hspan'
  have hthird : d.lines.position? 3 = some ⟨1, 0⟩ := by decide
  have hfifth : d.lines.position? 5 = some ⟨1, 2⟩ := by decide
  cases hthird.symm.trans hp
  cases hfifth.symm.trans hq
  exact ⟨span, hspan, hordered range span hspan, hwithin.mpr (by decide),
    Bool.eq_false_iff.mpr (mt hbeyond.mp (by decide))⟩

end Document
end UsageReport
