/-
# Lines as pieces of the text

A text split at its newlines falls into pieces, and joined by single newlines the pieces are the
text again.  This split counts nothing and knows no offsets.  A line index counts offsets and
knows no pieces.

They say the same (`slice?_lineRange?`): the text of a line, cut out by the range that the index
gives it, is the piece with the number of the line.  The cut never fails, as a newline is a
character of its own and both ends of a line are next to one or at an end of the text
(`LineIndex.isLine_ofText`).

The main statement (`lines_are_pieces`) adds the way back, from an offset to its line.  The line of
an offset is found by its number, which a client is told as the line of a `Position`.
-/
import UsageReport.Proofs.Document.Span

namespace UsageReport

/-! ## 1. The split of a text -/

namespace Document

variable {d : Document} {offset : Nat}

/-- What stands between the newlines of the text, from the first piece to the last. -/
def pieces (d : Document) : List String := (d.text.toList.splitOn '\n').map String.ofList

/-- **Joined by newlines the pieces are the text.** -/
theorem intercalate_pieces (d : Document) : "\n".intercalate d.pieces = d.text := by
  have hchars : d.pieces.map String.toList = d.text.toList.splitOn '\n' := by
    simp [pieces, Function.comp_def]
  rw [← String.toList_inj, String.toList_intercalate, hchars]
  exact List.intercalate_splitOn '\n'

/-- There are as many pieces as lines. -/
theorem length_pieces (d : Document) : d.pieces.length = d.lines.lineCount := by
  rw [pieces, List.length_map]
  exact LineIndex.length_splitOn_ofText d.text

/-- The piece with the number of a line, and where it stands. -/
theorem isLine_of_getElem?_pieces {line : Nat} {piece : String}
    (h : d.pieces[line]? = some piece) :
    ∃ front back, Text.IsLine d.text.toList front piece.toList back ∧
      d.lines.lineStart? line = some (Text.byteCount front) ∧
      d.lines.lineEnd line = Text.byteCount (front ++ piece.toList) := by
  rw [pieces, List.getElem?_map, Option.map_eq_some_iff] at h
  obtain ⟨chars, hchars, rfl⟩ := h
  rw [String.toList_ofList]
  exact LineIndex.isLine_ofText hchars

/-- No piece holds a newline. -/
theorem newline_not_mem_of_mem_pieces {piece : String} (h : piece ∈ d.pieces) :
    '\n' ∉ piece.toList := by
  obtain ⟨line, hpiece⟩ := List.getElem?_of_mem h
  obtain ⟨front, back, hline, -⟩ := isLine_of_getElem?_pieces hpiece
  exact hline.newline_not_mem

/-- **The text of a line is its piece**, and there is no text where there is no line. -/
theorem slice?_lineRange? (d : Document) (line : Nat) :
    (d.lines.lineRange? line).bind d.slice? = d.pieces[line]? := by
  have hwf : d.lines.WellFormed := LineIndex.wellFormed_ofText d.text
  cases hpiece : d.pieces[line]? with
  | none =>
    rw [List.getElem?_eq_none_iff, length_pieces] at hpiece
    rw [hwf.lineRange?_eq_none_iff.mpr hpiece, Option.bind_none]
  | some piece =>
    obtain ⟨front, back, hline, hstart, hend⟩ := isLine_of_getElem?_pieces hpiece
    rw [hwf.lineRange?_of_lineStart? hstart, Option.bind_some, slice?]
    simp only [hend, hline.slice?_eq, Option.map_some, String.ofList_toList]

/-! ## 2. The line of an offset -/

/-- The line that the document gives for an offset is the one that the position of the offset is
on. -/
theorem lineRangeAt?_of_position? (small : d.length < 2 ^ 32) {p : Position}
    (hp : d.lines.position? offset = some p) :
    d.lineRangeAt? offset = d.lines.lineRange? p.line.toNat := by
  obtain ⟨hle, hline, -⟩ := (position?_eq_some_iff small).mp hp
  have hlength : offset ≤ d.lines.length := hle
  rw [lineRangeAt?, if_pos hlength, hline]

/-- **The lines of a text are its pieces between newlines.**  Joined by newlines the pieces are the
text, and none of them holds a newline.  The ranges of the lines cut the pieces out of the text, and
beyond the last line there are no ranges.  For every offset of the text, also for one inside a
character, the document gives the line that the position of the offset is on: its range holds the
offset, and its text is the piece.  Beyond the text there is no line. -/
theorem lines_are_pieces (small : d.length < 2 ^ 32) :
    "\n".intercalate d.pieces = d.text ∧
    (∀ piece ∈ d.pieces, '\n' ∉ piece.toList) ∧
    d.pieces.length = d.lines.lineCount ∧
    (∀ line, (d.lines.lineRange? line).bind d.slice? = d.pieces[line]?) ∧
    (∀ line, d.lines.lineRange? line = none ↔ d.lines.lineCount ≤ line) ∧
    (∀ offset ≤ d.length, ∃ p range piece, d.lines.position? offset = some p ∧
      d.lineAt? offset = some (range, piece) ∧
      d.lines.lineRange? p.line.toNat = some range ∧ d.pieces[p.line.toNat]? = some piece ∧
      range.start ≤ offset ∧ offset ≤ range.stop) ∧
    ∀ offset, d.length < offset → d.lineAt? offset = none := by
  have hwf : d.lines.WellFormed := LineIndex.wellFormed_ofText d.text
  refine ⟨intercalate_pieces d, fun piece => newline_not_mem_of_mem_pieces, length_pieces d,
    slice?_lineRange? d, fun line => hwf.lineRange?_eq_none_iff, ?_,
    fun offset => lineAt?_of_lt⟩
  intro offset hle
  obtain ⟨p, hp⟩ := Option.isSome_iff_exists.mp (hwf.isSome_position?_iff.mpr hle)
  obtain ⟨-, hline, -⟩ := (position?_eq_some_iff small).mp hp
  obtain ⟨range, hrange, hstart, hstop⟩ := lineRange?_lineAt hle
  rw [hline] at hrange
  obtain ⟨piece, hpiece⟩ : ∃ piece, d.pieces[p.line.toNat]? = some piece := by
    rw [← Option.isSome_iff_exists, isSome_getElem?, length_pieces, ← Nat.not_le,
      ← hwf.lineRange?_eq_none_iff, hrange]
    exact Option.some_ne_none range
  have htext : d.slice? range = some piece := by
    rw [← hpiece, ← slice?_lineRange?, hrange, Option.bind_some]
  refine ⟨p, range, piece, hp, ?_, hrange, hpiece, ?_, ?_⟩
  · rw [lineAt?, lineRangeAt?_of_position? small hp, hrange, Option.bind_some, htext]
    rfl
  · rw [hstart]
    exact Text.lineStart_le _ offset
  · rw [hstop]
    exact Text.le_lineEnd _ offset

/-- A text that ends with a newline has an empty last line.  The offset inside its first character
is on the first line. -/
theorem lines_are_pieces_sample :
    let d : Document := ⟨⟨0⟩, "a.cs", "é\n\nb\n", none⟩
    d.pieces = ["é", "", "b", ""] ∧ "\n".intercalate d.pieces = d.text ∧
      d.lines.lineRange? 4 = none ∧ d.lineAt? 1 = some (⟨0, 2, by decide⟩, "é") ∧
      d.lineAt? 7 = none := by
  intro d
  have hpieces : d.pieces = ["é", "", "b", ""] := by decide
  obtain ⟨hjoin, -, hcount, -, hbeyond, hwithin, hnone⟩ :=
    lines_are_pieces (by decide : d.length < 2 ^ 32)
  obtain ⟨p, range, piece, hp, hline, hrange, hpiece, -⟩ := hwithin 1 (by decide)
  have hposition : d.lines.position? 1 = some ⟨0, 1⟩ := by decide
  cases hposition.symm.trans hp
  have hfirst : d.lines.lineRange? 0 = some ⟨0, 2, by decide⟩ := by decide
  cases hfirst.symm.trans hrange
  rw [hpieces] at hpiece
  cases hpiece
  exact ⟨hpieces, hjoin, (hbeyond 4).mpr (by rw [← hcount, hpieces]; rfl), hline,
    hnone 7 (by decide)⟩

end Document
end UsageReport
