/-
# Spans of ranges

A span says of both ends of a range on which line they are and how far behind its start.  The
line of an offset starts and ends where its bytes say (`lineStart?_lineAt`, `lineEnd_lineAt`), so
all that a span says can be read off the bytes of the text (`position?_eq_some_iff`).

A span leads back to its range (`offset?_of_span?`), and its ends are in order.  Line and column
have 32 bits each, so all this is about texts shorter than 4 GiB.
-/
import UsageReport.Proofs.Document.Lines

namespace UsageReport

/-! ## 1. Order of positions -/

namespace LineIndex

variable {index : LineIndex} {a b : Nat} {p q : Position}

/-- A later offset is not on an earlier line. -/
theorem lineAt_mono (index : LineIndex) : Monotone index.lineAt := by
  intro a b h
  refine List.countP_mono_left fun start _ hstart => ?_
  rw [decide_eq_true_eq] at hstart ⊢
  exact Nat.le_trans hstart h

/-- **The position of a later offset is not an earlier one.** -/
theorem WellFormed.position?_mono (h : index.WellFormed) (hsize : index.length < 2 ^ 32)
    (hp : index.position? a = some p) (hq : index.position? b = some q) (hle : a ≤ b) :
    p ≤ q := by
  obtain ⟨start, hstart, hsum, -, hline⟩ := (h.position?_eq_some_iff hsize).mp hp
  obtain ⟨start', hstart', hsum', -, hline'⟩ := (h.position?_eq_some_iff hsize).mp hq
  have hlines : p.line.toNat ≤ q.line.toNat := by
    rw [← hline, ← hline']
    exact lineAt_mono index hle
  rcases Nat.lt_or_eq_of_le hlines with hlt | heq
  · exact .inl (UInt32.lt_iff_toNat_lt.mpr hlt)
  · -- On one line the columns are counted from the same start.
    rw [heq, hstart', Option.some_inj] at hstart
    exact .inr ⟨UInt32.toNat_inj.mp heq, UInt32.le_iff_toNat_le.mpr (by omega)⟩

end LineIndex

/-! ## 2. Lines of a document by number -/

namespace Document

variable {d : Document} {offset : Nat}

/-- The line of an offset starts behind the last newline before the offset. -/
theorem lineStart?_lineAt (h : offset ≤ d.length) :
    d.lines.lineStart? (d.lines.lineAt offset) =
      some (Text.lineStart (Text.bytes d.text.toList) offset) := by
  obtain ⟨front, line, back, -, hline, hstart, -, hfront, hback⟩ := isLine_lineAt h
  rw [hstart, hline.lineStart_eq hfront hback]

/-- The line of an offset ends at the next newline. -/
theorem lineEnd_lineAt (h : offset ≤ d.length) :
    d.lines.lineEnd (d.lines.lineAt offset) =
      Text.lineEnd (Text.bytes d.text.toList) offset := by
  obtain ⟨front, line, back, -, hline, -, hend, hfront, hback⟩ := isLine_lineAt h
  rw [hend, hline.lineEnd_eq hfront hback]

/-- The start of the line of an offset is on that line. -/
theorem lineAt_lineStart (h : offset ≤ d.length) :
    d.lines.lineAt (Text.lineStart (Text.bytes d.text.toList) offset) =
      d.lines.lineAt offset := by
  have hwf : d.lines.WellFormed := LineIndex.wellFormed_ofText d.text
  have hline := hwf.lineStart_le_lineEnd (lineStart?_lineAt h)
  exact ((hwf.lineAt_eq_iff (lineStart?_lineAt h)).mpr ⟨Nat.le_refl _, hline⟩).2

/-- The end of the line of an offset is on that line. -/
theorem lineAt_lineEnd (h : offset ≤ d.length) :
    d.lines.lineAt (Text.lineEnd (Text.bytes d.text.toList) offset) =
      d.lines.lineAt offset := by
  have hwf : d.lines.WellFormed := LineIndex.wellFormed_ofText d.text
  have hline := hwf.lineStart_le_lineEnd (lineStart?_lineAt h)
  rw [← lineEnd_lineAt h]
  exact ((hwf.lineAt_eq_iff (lineStart?_lineAt h)).mpr ⟨hline, Nat.le_refl _⟩).2

/-- The document gives the range of the line of an offset. -/
theorem lineRange?_lineAt (h : offset ≤ d.length) :
    ∃ line, d.lines.lineRange? (d.lines.lineAt offset) = some line ∧
      line.start = Text.lineStart (Text.bytes d.text.toList) offset ∧
      line.stop = Text.lineEnd (Text.bytes d.text.toList) offset := by
  have hwf : d.lines.WellFormed := LineIndex.wellFormed_ofText d.text
  exact ⟨_, hwf.lineRange?_of_lineStart? (lineStart?_lineAt h), rfl, lineEnd_lineAt h⟩

/-! ## 3. What a span says -/

/-- **The position of an offset in bytes.** -/
theorem position?_eq_some_iff (small : d.length < 2 ^ 32) {p : Position} :
    d.lines.position? offset = some p ↔
      offset ≤ d.length ∧ d.lines.lineAt offset = p.line.toNat ∧
        Text.lineStart (Text.bytes d.text.toList) offset + p.column.toNat = offset := by
  have hwf : d.lines.WellFormed := LineIndex.wellFormed_ofText d.text
  rw [hwf.position?_eq_some_iff small]
  constructor
  · rintro ⟨start, hstart, hsum, hle, hline⟩
    rw [← hline, lineStart?_lineAt hle, Option.some_inj] at hstart
    exact ⟨hle, hline, by omega⟩
  · rintro ⟨hle, hline, hsum⟩
    exact ⟨_, hline ▸ lineStart?_lineAt hle, hsum, hle, hline⟩

variable {range : TextRange} {span : Span}

theorem span?_eq_some_iff :
    d.span? range = some span ↔ d.lines.position? range.start = some span.start ∧
      d.lines.position? range.stop = some span.stop := by
  obtain ⟨start, stop⟩ := span
  rw [span?, LineIndex.span?]
  cases d.lines.position? range.start <;> cases d.lines.position? range.stop <;> simp

/-- What a span says of the start and of the end of its range, in bytes. -/
theorem of_span? (small : d.length < 2 ^ 32) (h : d.span? range = some span) :
    (range.start ≤ d.length ∧ d.lines.lineAt range.start = span.start.line.toNat ∧
        Text.lineStart (Text.bytes d.text.toList) range.start + span.start.column.toNat =
          range.start) ∧
      range.stop ≤ d.length ∧ d.lines.lineAt range.stop = span.stop.line.toNat ∧
        Text.lineStart (Text.bytes d.text.toList) range.stop + span.stop.column.toNat =
          range.stop := by
  obtain ⟨hstart, hstop⟩ := span?_eq_some_iff.mp h
  exact ⟨(position?_eq_some_iff small).mp hstart, (position?_eq_some_iff small).mp hstop⟩

/-- **A span leads back to its range.** -/
theorem offset?_of_span? (small : d.length < 2 ^ 32) (h : d.span? range = some span) :
    d.offset? span.start = some range.start ∧ d.offset? span.stop = some range.stop := by
  have hwf : d.lines.WellFormed := LineIndex.wellFormed_ofText d.text
  obtain ⟨hstart, hstop⟩ := span?_eq_some_iff.mp h
  exact ⟨(hwf.position?_eq_some_iff_offset? small).mp hstart,
    (hwf.position?_eq_some_iff_offset? small).mp hstop⟩

/-- The start of a span is not after its end. -/
theorem start_le_stop_of_span? (small : d.length < 2 ^ 32) (h : d.span? range = some span) :
    span.start ≤ span.stop := by
  have hwf : d.lines.WellFormed := LineIndex.wellFormed_ofText d.text
  obtain ⟨hstart, hstop⟩ := span?_eq_some_iff.mp h
  exact hwf.position?_mono small hstart hstop range.start_le_stop

end Document
end UsageReport
