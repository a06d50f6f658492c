/-
# The highlight of a preview

A preview marks its range in the text that it shows, so the offsets of the range are counted anew,
from the start of the text.  The text goes from where the line of the start begins to where the
line of the stop ends (`TouchedLines`).  The range lies between the two, and a slice of such a
stretch is a slice of the document (`Text.slice?_slice`); so what is marked is what stands in the
range, or nothing in both if the range cuts a character.

The one thing that can go wrong is that there is nothing to count from, when no run covers the
lines.  That is so only if the lines are one line without a character (`eq_nil_iff`).

The main statement is `lexicalPreview_highlight`.
-/
import UsageReport.Proofs.Document.Span
import UsageReport.Proofs.Preview

namespace UsageReport

/-! ## 1. A stretch of a text -/

namespace Text

/-- The range of a piece of a text behind `front`. -/
def stretch (front piece : List Char) : TextRange where
  start := byteCount front
  stop := byteCount (front ++ piece)
  start_le_stop := by
    rw [byteCount_append]
    exact Nat.le_add_right _ _

@[simp] theorem stretch_start (front piece : List Char) :
    (stretch front piece).start = byteCount front := rfl

@[simp] theorem stretch_stop (front piece : List Char) :
    (stretch front piece).stop = byteCount (front ++ piece) := rfl

theorem length_stretch (front piece : List Char) :
    (stretch front piece).length = byteCount piece := by
  rw [TextRange.length, stretch_start, stretch_stop, byteCount_append, Nat.add_sub_cancel_left]

/-- **A slice of a stretch is a slice of the text**, as far behind the start of the stretch. -/
theorem slice?_slice {front mid back : List Char} {a b : Nat} (h : b ≤ byteCount mid) :
    slice? (byteCount front + a) (byteCount front + b) (front ++ mid ++ back) =
      slice? a b mid := by
  ext piece
  rw [slice?_eq_some_iff, slice?_eq_some_iff]
  constructor
  · rintro ⟨front', rest, hcut, hstart, hstop⟩
    have hbegin : front ++ (mid ++ back) = front' ++ (piece ++ rest) := by
      rw [← List.append_assoc, hcut, List.append_assoc]
    obtain ⟨skipped, rfl⟩ := exists_eq_append hbegin (by omega)
    have hend : (front ++ skipped ++ piece) ++ rest = (front ++ mid) ++ back := hcut.symm
    obtain ⟨left, hleft⟩ := exists_eq_append hend (by rw [byteCount_append front mid]; omega)
    rw [List.append_assoc, List.append_assoc, List.append_cancel_left_eq] at hleft
    rw [byteCount_append] at hstart hstop
    refine ⟨skipped, left, by rw [hleft, List.append_assoc], by omega, ?_⟩
    rw [byteCount_append] at hstop ⊢
    omega
  · rintro ⟨skipped, left, rfl, rfl, rfl⟩
    exact ⟨front ++ skipped, left ++ back, by simp, by simp, by simp⟩

end Text

/-! ## 2. The touched lines of a range -/

namespace Document

variable {d : Document} {range : TextRange} {front lines back : List Char}

/-- The text of a document, cut around the lines that a range touches. -/
structure TouchedLines (d : Document) (range : TextRange) (front lines back : List Char) :
    Prop where
  eq_append : d.text.toList = front ++ lines ++ back
  front_eq : Text.byteCount front = Text.lineStart (Text.bytes d.text.toList) range.start
  lines_eq : Text.byteCount (front ++ lines) = Text.lineEnd (Text.bytes d.text.toList) range.stop

/-- Both ends of the range are on one line, and there is no character on it. -/
def TouchesEmptyLine (d : Document) (range : TextRange) : Prop :=
  d.lines.lineAt range.start = d.lines.lineAt range.stop ∧
    (d.text.toList.splitOn '\n')[d.lines.lineAt range.start]? = some []

instance (d : Document) (range : TextRange) : Decidable (d.TouchesEmptyLine range) :=
  inferInstanceAs (Decidable (_ ∧ _))

namespace TouchedLines

variable (h : d.TouchedLines range front lines back)

include h

/-- The document has the touched lines where they are. -/
theorem slice?_stretch : d.slice? (Text.stretch front lines) = some (String.ofList lines) := by
  have hslice : Text.slice? (Text.byteCount front) (Text.byteCount (front ++ lines))
      d.text.toList = some lines :=
    Text.slice?_eq_some_iff.mpr ⟨front, back, h.eq_append, rfl, rfl⟩
  rw [slice?, Text.stretch_start, Text.stretch_stop, hslice, Option.map_some]

theorem front_le_start : Text.byteCount front ≤ range.start := by
  rw [h.front_eq]
  exact Text.lineStart_le _ _

theorem stop_le_lines : range.stop ≤ Text.byteCount front + Text.byteCount lines := by
  rw [← Text.byteCount_append, h.lines_eq]
  exact Text.le_lineEnd _ _

/-- The range lies within the touched lines, some way behind their start. -/
theorem exists_relative : ∃ relative : TextRange,
    Text.byteCount front + relative.start = range.start ∧
      Text.byteCount front + relative.stop = range.stop ∧
      relative.stop ≤ Text.byteCount lines := by
  have hfront := h.front_le_start
  have hstop := h.stop_le_lines
  have hordered := range.start_le_stop
  refine ⟨⟨range.start - Text.byteCount front, range.stop - Text.byteCount front, by omega⟩,
    Nat.add_sub_cancel' hfront, Nat.add_sub_cancel' (Nat.le_trans hfront hordered), ?_⟩
  exact Nat.sub_le_of_le_add (by omega)

/-- The range in the touched lines is the range in the document, counted from their start. -/
theorem slice?_relative {a b : Nat} (ha : Text.byteCount front + a = range.start)
    (hb : Text.byteCount front + b = range.stop) :
    Text.slice? a b lines = Text.slice? range.start range.stop d.text.toList := by
  have hwithin : b ≤ Text.byteCount lines := by
    have := h.stop_le_lines
    omega
  rw [h.eq_append, ← ha, ← hb, Text.slice?_slice hwithin]

/-- **The touched lines are empty** exactly if they are one line without a character. -/
theorem eq_nil_iff (within : range.stop ≤ d.length) : lines = [] ↔ d.TouchesEmptyLine range := by
  have hle : range.start ≤ d.length := Nat.le_trans range.start_le_stop within
  obtain ⟨front', line, back', hpiece, hfirst, -, -, hbegin, hend⟩ := isLine_lineAt hle
  have hfront := h.front_eq
  have hlines := h.lines_eq
  have hline_start := hfirst.lineStart_eq hbegin hend
  have hline_end := hfirst.lineEnd_eq hbegin hend
  rw [Text.byteCount_append] at hline_end hlines
  rw [TouchesEmptyLine, hpiece, Option.some_inj]
  constructor
  · rintro rfl
    -- Nothing is between the start of the first line and the end of the last one.
    have hstart := h.front_le_start
    have hstop := h.stop_le_lines
    have hordered := range.start_le_stop
    rw [Text.byteCount_nil] at hlines hstop
    have hsame : range.stop = range.start := by omega
    rw [hsame] at hlines
    exact ⟨by rw [hsame], Text.byteCount_eq_zero_iff.mp (by omega)⟩
  · rintro ⟨hsame, rfl⟩
    have hends := lineEnd_lineAt hle
    rw [hsame, lineEnd_lineAt within] at hends
    rw [Text.byteCount_nil] at hline_end
    exact Text.byteCount_eq_zero_iff.mp (by omega)

end TouchedLines
end Document

/-! ## 3. The standard preview -/

namespace Preview

variable {d : Document} {range : TextRange}

/-- Nothing is shown: no runs, so no text and no place for a highlight in it. -/
structure IsBlank (p : Preview) (d : Document) : Prop where
  covered : p.coveredRange? = none
  text : p.text? d = none
  highlight : p.relativeHighlight? = none

theorem isBlank_of_covered {p : Preview} (h : p.coveredRange? = none) : p.IsBlank d where
  covered := h
  text := by rw [text?, h, Option.bind_none]
  highlight := by rw [relativeHighlight?, h, Option.bind_none]

/-- **The runs of the standard preview cover the touched lines**, if there is anything in them. -/
theorem coveredRange?_lexical (h : range.stop ≤ d.length) :
    ∃ front lines back, d.TouchedLines range front lines back ∧
      (lexical d range).coveredRange? =
        if lines = [] then none else some (Text.stretch front lines) := by
  obtain ⟨touched, text, hslice, hstart, hstop, htiles, -, -⟩ := lexical_of_le h
  obtain ⟨lines, hlines, rfl⟩ := Option.map_eq_some_iff.mp hslice
  obtain ⟨front, back, hcut, hfront, hback⟩ := Text.slice?_eq_some_iff.mp hlines
  refine ⟨front, lines, back, ⟨hcut, hfront.trans hstart, hback.trans hstop⟩, ?_⟩
  rw [← hfront, ← hback] at htiles
  have hnil : (lexical d range).runs = [] ↔ lines = [] := by
    rw [htiles.eq_nil_iff, ← Text.byteCount_eq_zero_iff, Text.byteCount_append]
    omega
  split
  · rename_i hempty
    exact coveredRange?_of_nil (hnil.mpr hempty)
  · rename_i hne
    exact coveredRange?_of_tiles htiles (mt hnil.mp hne)

/-- **The text of the standard preview** is that of the touched lines.  There is none if they are
empty. -/
theorem text?_lexical (h : range.stop ≤ d.length) :
    ∃ front lines back, d.TouchedLines range front lines back ∧
      (lexical d range).text? d = if lines = [] then none else some (String.ofList lines) := by
  obtain ⟨front, lines, back, htouched, hcovered⟩ := coveredRange?_lexical h
  refine ⟨front, lines, back, htouched, ?_⟩
  rw [text?, hcovered]
  split
  · rfl
  · exact htouched.slice?_stretch

/-- A highlight within the covered text is found in it, as far behind the start as it should be. -/
theorem relativeHighlight?_eq_some_iff {p : Preview} {covered relative : TextRange}
    (h : p.coveredRange? = some covered) :
    p.relativeHighlight? = some relative ↔
      p.highlight.start = covered.start + relative.start ∧
        p.highlight.stop = covered.start + relative.stop ∧ relative.stop ≤ covered.length := by
  rw [relativeHighlight?, h, Option.bind_some, Option.filter_eq_some_iff,
    TextRange.relativeTo?_eq_some_iff, decide_eq_true_eq, and_assoc]

end Preview

/-! ## 4. The main statement -/

/-- **The highlight marks the right text.**  For a range within the text, a standard preview shows
the touched lines, and the part of them that it marks is what the document has in the range, be it
a text or nothing, where the range cuts a character.  It shows nothing if all that the range touches
is one line without a character, or if the range goes beyond the text. -/
theorem Host.lexicalPreview_highlight {σ : Type} {signal : Signal} {s : Session σ}
    (hs : s.Calm signal) (d : Document) (range : TextRange) :
    ∃ p : Preview, lexicalPreview signal d range s = .ok p s ∧
      (range.stop ≤ d.length → ¬ d.TouchesEmptyLine range →
        ∃ covered text relative, p.coveredRange? = some covered ∧ p.text? d = some text ∧
          p.relativeHighlight? = some relative ∧
          covered.length = Text.byteCount text.toList ∧ relative.stop ≤ covered.length ∧
          (Text.slice? relative.start relative.stop text.toList).map String.ofList =
            d.slice? range) ∧
      (range.stop ≤ d.length → d.TouchesEmptyLine range → p.IsBlank d) ∧
      (d.length < range.stop → p.IsBlank d) := by
  refine ⟨.lexical d range, lexicalPreview_of_calm hs d range, ?_, ?_, ?_⟩
  · intro within hsome
    obtain ⟨front, lines, back, htouched, hcovered⟩ := Preview.coveredRange?_lexical within
    rw [if_neg (mt (htouched.eq_nil_iff within).mp hsome)] at hcovered
    obtain ⟨relative, hstart, hstop, hinside⟩ := htouched.exists_relative
    rw [← Text.length_stretch front] at hinside
    refine ⟨_, String.ofList lines, relative, hcovered, ?_, ?_, ?_, hinside, ?_⟩
    · rw [Preview.text?, hcovered]
      exact htouched.slice?_stretch
    · exact (Preview.relativeHighlight?_eq_some_iff hcovered).mpr
        ⟨hstart.symm, hstop.symm, hinside⟩
    · rw [String.toList_ofList, Text.length_stretch]
    · rw [String.toList_ofList, htouched.slice?_relative hstart hstop, Document.slice?]
  · intro within hempty
    obtain ⟨front, lines, back, htouched, hcovered⟩ := Preview.coveredRange?_lexical within
    rw [if_pos ((htouched.eq_nil_iff within).mpr hempty)] at hcovered
    exact Preview.isBlank_of_covered hcovered
  · intro beyond
    exact Preview.isBlank_of_covered (Preview.coveredRange?_of_nil (Preview.lexical_of_lt beyond))

/-- A range over the end of a line, that ends behind a character of two bytes: what is marked in
the preview is `b`, the newline and `é`. -/
theorem Host.lexicalPreview_highlight_sample :
    let d : Document := ⟨⟨0⟩, "a.cs", "x\nab\né$\ncd", none⟩
    ∃ p text relative, lexicalPreview .request d ⟨3, 7, by decide⟩ ⟨false, ()⟩ =
        .ok p ⟨false, ()⟩ ∧
      p.text? d = some text ∧ p.relativeHighlight? = some relative ∧
      (Text.slice? relative.start relative.stop text.toList).map String.ofList = some "b\né" := by
  intro d
  obtain ⟨p, hp, hshown, -⟩ := @lexicalPreview_highlight Unit .request ⟨false, ()⟩ rfl d
    ⟨3, 7, by decide⟩
  obtain ⟨covered, text, relative, -, htext, hrelative, -, -, hpart⟩ :=
    hshown (by decide) (by decide)
  exact ⟨p, text, relative, hp, htext, hrelative, hpart.trans (by decide)⟩

end UsageReport
