/-
# The lines that a preview shows

A byte of a document is on one line, and a newline is on the line that it ends.  So a range has
bytes on certain lines, and a preview shows certain lines: those that have a byte under a run.

The standard preview of a range shows the lines of its first and of its last offset and all between
them.  But the stop of a range is the first offset that is not in it.  It is on a line on which the
range has a byte, unless that line begins there; and a line that begins where the range stops is
shown as soon as there is a character on it (`hasByteOn_or_beginsBehind_iff`).  So a range that
takes in the newline at its end has the next line in its preview, without a byte of its own there.

The main statement (`lexicalPreview_lines`) says which lines are shown, and for which ranges they
are the lines of the range.
-/
import UsageReport.Proofs.Document.Span
import UsageReport.Proofs.Preview

namespace UsageReport

/-! ## 1. Where a line begins and ends -/

namespace Text

/-- A line begins at an offset if the byte before it is a newline. -/
theorem lineStart_eq_self_iff {bs : List UInt8} {offset : Nat} (hpos : 0 < offset)
    (h : offset ≤ bs.length) : lineStart bs offset = offset ↔ bs[offset - 1]? = some newline := by
  cases offset with
  | zero => exact absurd hpos (Nat.lt_irrefl 0)
  | succ n =>
    have hbyte : bs[n]? = some bs[n] := List.getElem?_eq_getElem h
    have hlength : (bs.take n).reverse.length = n := by
      rw [List.length_reverse, List.length_take_of_le (Nat.le_of_succ_le h)]
    rw [Nat.add_sub_cancel, lineStart, List.take_add_one, hbyte, Option.toList_some,
      List.reverse_append, List.reverse_singleton, List.singleton_append, List.dropWhile_cons,
      Option.some_inj]
    split
    · rename_i hne
      have hle := (List.dropWhile_suffix (l := (bs.take n).reverse) (· != newline)).length_le
      exact iff_of_false (by omega) (bne_iff_ne.mp hne)
    · rename_i heq
      rw [List.length_cons, hlength]
      exact iff_of_true rfl (by simpa using heq)

/-- A line goes on at an offset if there is a byte that is no newline. -/
theorem lt_lineEnd_iff {bs : List UInt8} {offset : Nat} :
    offset < lineEnd bs offset ↔ ∃ b, bs[offset]? = some b ∧ b ≠ newline := by
  rw [lineEnd, List.drop_eq_getElem?_toList_append]
  cases hbyte : bs[offset]? with
  | none =>
    have hdrop : bs.drop (offset + 1) = [] :=
      List.drop_of_length_le (Nat.le_succ_of_le (List.getElem?_eq_none_iff.mp hbyte))
    simp [hdrop]
  | some b =>
    rw [Option.toList_some, List.singleton_append, List.takeWhile_cons]
    split
    · rename_i hne
      rw [List.length_cons]
      exact iff_of_true (by omega) ⟨b, rfl, bne_iff_ne.mp hne⟩
    · rename_i heq
      refine iff_of_false (Nat.lt_irrefl offset) ?_
      rintro ⟨b', hb', hne⟩
      cases hb'
      exact heq (bne_iff_ne.mpr hne)

end Text

/-! ## 2. The lines of a range -/

namespace Document

variable {d : Document} {range : TextRange} {line offset : Nat}

/-- Some byte of the range is on the line, be it the newline at its end. -/
def HasByteOn (d : Document) (range : TextRange) (line : Nat) : Prop :=
  ∃ offset, range.start ≤ offset ∧ offset < range.stop ∧ d.lines.lineAt offset = line

/-- The line begins where the range stops, and it is not empty. -/
def BeginsBehind (d : Document) (range : TextRange) (line : Nat) : Prop :=
  d.lines.lineStart? line = some range.stop ∧ range.stop < d.lines.lineEnd line

/-- Only the line of the stop can begin there. -/
theorem beginsBehind_iff (within : range.stop ≤ d.length) :
    d.BeginsBehind range line ↔ d.lines.lineAt range.stop = line ∧
      Text.lineStart (Text.bytes d.text.toList) range.stop = range.stop ∧
      range.stop < Text.lineEnd (Text.bytes d.text.toList) range.stop := by
  have hwf : d.lines.WellFormed := LineIndex.wellFormed_ofText d.text
  constructor
  · rintro ⟨hstart, hlt⟩
    have hline := (hwf.lineAt_eq_iff hstart).mpr ⟨Nat.le_refl _, Nat.le_of_lt hlt⟩
    rw [← hline.2, lineStart?_lineAt within, Option.some_inj] at hstart
    rw [← hline.2, lineEnd_lineAt within] at hlt
    exact ⟨hline.2, hstart, hlt⟩
  · rintro ⟨rfl, hstart, hlt⟩
    exact ⟨by rw [lineStart?_lineAt within, hstart], by rwa [lineEnd_lineAt within]⟩

/-- **Where a line begins behind a range**: the range ends with a newline, and behind it stands
something that is none. -/
theorem exists_beginsBehind_iff (nonempty : range.start < range.stop)
    (within : range.stop ≤ d.length) :
    (∃ line, d.BeginsBehind range line) ↔
      (Text.bytes d.text.toList)[range.stop - 1]? = some Text.newline ∧
      ∃ b, (Text.bytes d.text.toList)[range.stop]? = some b ∧ b ≠ Text.newline := by
  have hbytes : range.stop ≤ (Text.bytes d.text.toList).length := by
    rwa [Text.length_bytes]
  rw [← Text.lineStart_eq_self_iff (Nat.zero_lt_of_lt nonempty) hbytes, ← Text.lt_lineEnd_iff]
  simp only [beginsBehind_iff within, exists_eq_left']

/-- The range has no byte on a line that begins behind it. -/
theorem BeginsBehind.not_hasByteOn (h : d.BeginsBehind range line) : ¬ d.HasByteOn range line := by
  have hwf : d.lines.WellFormed := LineIndex.wellFormed_ofText d.text
  rintro ⟨offset, -, hlt, rfl⟩
  have := (hwf.le_lineAt_of_lineStart? h.1).mpr (Nat.le_refl _)
  omega

/-- From the start of the line of an offset to the end of it is all one line. -/
theorem lineAt_eq_of_between {other : Nat} (h : offset ≤ d.length)
    (hstart : Text.lineStart (Text.bytes d.text.toList) offset ≤ other)
    (hstop : other ≤ Text.lineEnd (Text.bytes d.text.toList) offset) :
    d.lines.lineAt other = d.lines.lineAt offset := by
  have hwf : d.lines.WellFormed := LineIndex.wellFormed_ofText d.text
  rw [← lineEnd_lineAt h] at hstop
  exact ((hwf.lineAt_eq_iff (lineStart?_lineAt h)).mpr ⟨hstart, hstop⟩).2

/-- **The lines between the ends of a range** are those on which it has a byte, and the one that
begins behind it. -/
theorem hasByteOn_or_beginsBehind_iff (nonempty : range.start < range.stop)
    (within : range.stop ≤ d.length) :
    (∃ offset, Text.lineStart (Text.bytes d.text.toList) range.start ≤ offset ∧
        offset < Text.lineEnd (Text.bytes d.text.toList) range.stop ∧
        d.lines.lineAt offset = line) ↔
      d.HasByteOn range line ∨ d.BeginsBehind range line := by
  have hfirst := Text.lineStart_le (Text.bytes d.text.toList) range.start
  have hlast := Text.le_lineEnd (Text.bytes d.text.toList) range.stop
  constructor
  · rintro ⟨offset, hstart, hstop, rfl⟩
    rcases Nat.lt_or_ge offset range.start with hbefore | hfrom
    · -- Before the range: on the line of its first byte.
      have hle : range.start ≤ d.length := Nat.le_trans range.start_le_stop within
      have hend := Text.le_lineEnd (Text.bytes d.text.toList) range.start
      have hline := lineAt_eq_of_between hle hstart (by omega)
      exact .inl ⟨range.start, Nat.le_refl _, nonempty, hline.symm⟩
    rcases Nat.lt_or_ge offset range.stop with hin | hbehind
    · exact .inl ⟨offset, hfrom, hin, rfl⟩
    -- Behind the range: on the line of its last byte, unless that line ends there.
    have hbegin := Text.lineStart_le (Text.bytes d.text.toList) range.stop
    have hline := lineAt_eq_of_between within (Nat.le_trans hbegin hbehind) (Nat.le_of_lt hstop)
    rcases Nat.lt_or_eq_of_le hbegin with hlt | heq
    · have hbyte : d.lines.lineAt (range.stop - 1) = d.lines.lineAt range.stop :=
        lineAt_eq_of_between within (by omega) (by omega)
      exact .inl ⟨range.stop - 1, by omega, by omega, hbyte.trans hline.symm⟩
    · exact .inr ((beginsBehind_iff within).mpr ⟨hline.symm, heq, by omega⟩)
  · rintro (⟨offset, hstart, hstop, hline⟩ | hbehind)
    · exact ⟨offset, by omega, by omega, hline⟩
    · obtain ⟨hline, -, hlt⟩ := (beginsBehind_iff within).mp hbehind
      exact ⟨range.stop, by omega, hlt, hline⟩

end Document

/-! ## 3. The main statement -/

/-- Some byte of the line is under a run of the preview. -/
def Preview.CoversLine (p : Preview) (d : Document) (line : Nat) : Prop :=
  ∃ run ∈ p.runs, d.HasByteOn run.range line

/-- **The lines that a standard preview shows** are those on which its range has a byte, and the
line that begins where the range stops, if it is not empty.  So it shows only lines of the range,
except where the range ends with a newline and the next line has a character. -/
theorem Host.lexicalPreview_lines {σ : Type} {signal : Signal} {s : Session σ}
    (hs : s.Calm signal) {d : Document} {range : TextRange}
    (nonempty : range.start < range.stop) (within : range.stop ≤ d.length) :
    ∃ p : Preview, lexicalPreview signal d range s = .ok p s ∧
      (∀ line, p.CoversLine d line ↔ d.HasByteOn range line ∨ d.BeginsBehind range line) ∧
      ((∀ line, p.CoversLine d line → d.HasByteOn range line) ↔
        ¬ ((Text.bytes d.text.toList)[range.stop - 1]? = some Text.newline ∧
          ∃ b, (Text.bytes d.text.toList)[range.stop]? = some b ∧ b ≠ Text.newline)) := by
  obtain ⟨lines, text, -, hstart, hstop, htiles, -, -⟩ := Preview.lexical_of_le within
  have hcovers (line : Nat) : (Preview.lexical d range).CoversLine d line ↔
      d.HasByteOn range line ∨ d.BeginsBehind range line := by
    rw [← Document.hasByteOn_or_beginsBehind_iff nonempty within, ← hstart, ← hstop]
    constructor
    · rintro ⟨run, hrun, offset, hfrom, hto, hline⟩
      obtain ⟨hle, hlt⟩ := (htiles.exists_run_iff offset).mp ⟨run, hrun, hfrom, hto⟩
      exact ⟨offset, hle, hlt, hline⟩
    · rintro ⟨offset, hle, hlt, hline⟩
      obtain ⟨run, hrun, hfrom, hto⟩ := (htiles.exists_run_iff offset).mpr ⟨hle, hlt⟩
      exact ⟨run, hrun, offset, hfrom, hto, hline⟩
  refine ⟨.lexical d range, lexicalPreview_of_calm hs d range, hcovers, ?_⟩
  rw [← Document.exists_beginsBehind_iff nonempty within]
  constructor
  · rintro honly ⟨line, hbehind⟩
    exact hbehind.not_hasByteOn (honly line ((hcovers line).mpr (.inr hbehind)))
  · intro hnone line hcovered
    exact ((hcovers line).mp hcovered).resolve_right fun hbehind => hnone ⟨line, hbehind⟩

/-- The range over `a` and its newline has the line of `b` in its preview, and no byte on it. -/
theorem Host.lexicalPreview_lines_sample :
    let d : Document := ⟨⟨0⟩, "a.cs", "a\nb", none⟩
    let range : TextRange := ⟨0, 2, by decide⟩
    ∃ p, lexicalPreview .request d range ⟨false, ()⟩ = .ok p ⟨false, ()⟩ ∧
      p.CoversLine d 1 ∧ ¬ d.HasByteOn range 1 := by
  intro d range
  obtain ⟨p, hp, hcovers, -⟩ := @lexicalPreview_lines Unit .request ⟨false, ()⟩ rfl d range
    (by decide) (by decide)
  have hbehind : d.BeginsBehind range 1 := ⟨by decide, by decide⟩
  exact ⟨p, hp, (hcovers 1).mpr (.inr hbehind), hbehind.not_hasByteOn⟩

end UsageReport
