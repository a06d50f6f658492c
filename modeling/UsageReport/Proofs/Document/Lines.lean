/-
# The line of an offset

A document gives for an offset the line that holds it.  In bytes that is the stretch from behind
the last newline before the offset (`Text.lineStart`) to the next newline (`Text.lineEnd`), and
neither looks at an index.  The offset may stand inside a character; the ends of the line never
do, so the text of the line is there for every offset of the text (`lineAt?_of_le`).
-/
import Mathlib.Order.Monotone.Basic
import UsageReport.Proofs.Text.Position
import UsageReport.Document.Basic

namespace UsageReport

/-! ## 1. The line of an offset in bytes -/

namespace Text

/-- Where the line of an offset starts: behind the last newline before the offset. -/
def lineStart (bs : List UInt8) (offset : Nat) : Nat :=
  ((bs.take offset).reverse.dropWhile (· != newline)).length

/-- Where the line of an offset ends: at the next newline, or with the text. -/
def lineEnd (bs : List UInt8) (offset : Nat) : Nat :=
  offset + ((bs.drop offset).takeWhile (· != newline)).length

theorem lineStart_le (bs : List UInt8) (offset : Nat) : lineStart bs offset ≤ offset := by
  have hsuffix : (bs.take offset).reverse.dropWhile (· != newline) <:+ (bs.take offset).reverse :=
    List.dropWhile_suffix _
  have hle := hsuffix.length_le
  rw [List.length_reverse] at hle
  exact Nat.le_trans hle (List.length_take_le offset bs)

theorem le_lineEnd (bs : List UInt8) (offset : Nat) : offset ≤ lineEnd bs offset :=
  Nat.le_add_right _ _

/-- The line of a later offset does not start earlier. -/
theorem lineStart_mono (bs : List UInt8) : Monotone (lineStart bs) := by
  refine monotone_nat_of_le_succ fun offset => ?_
  rw [lineStart, lineStart, List.take_add_one]
  cases hb : bs[offset]? with
  | none => simp
  | some b =>
    rw [Option.toList_some, List.reverse_append, List.reverse_singleton, List.singleton_append,
      List.dropWhile_cons]
    split
    · exact Nat.le_refl _
    · -- The byte is a newline, so the line starts behind it and behind all before it.
      exact Nat.le_succ_of_le (List.dropWhile_suffix _).length_le

/-- The line of a later offset does not end earlier. -/
theorem lineEnd_mono (bs : List UInt8) : Monotone (lineEnd bs) := by
  refine monotone_nat_of_le_succ fun offset => ?_
  rw [lineEnd, lineEnd, List.drop_eq_getElem?_toList_append]
  cases hb : bs[offset]? with
  | none => simp
  | some b =>
    rw [Option.toList_some, List.singleton_append, List.takeWhile_cons]
    split
    · rw [List.length_cons]
      omega
    · rw [List.length_nil]
      omega

variable {cs front line back : List Char} {offset : Nat}

/-- No byte of a line is a newline. -/
theorem IsLine.ne_newline (h : IsLine cs front line back) {b : UInt8} (hb : b ∈ bytes line) :
    (b != newline) = true := by
  rw [bne_iff_ne]
  rintro rfl
  exact h.newline_not_mem (newline_mem_bytes_iff.mp hb)

theorem IsLine.bytes_eq (h : IsLine cs front line back) :
    bytes cs = bytes front ++ (bytes line ++ bytes back) := by
  rw [h.eq_append, List.append_assoc, bytes_append, bytes_append]

/-- The line that an offset stands on starts where the line of the offset does. -/
theorem IsLine.lineStart_eq (h : IsLine cs front line back) (hfront : byteCount front ≤ offset)
    (hline : offset ≤ byteCount (front ++ line)) :
    lineStart (bytes cs) offset = byteCount front := by
  rw [byteCount_append] at hline
  have htake : (bytes cs).take offset =
      bytes front ++ (bytes line).take (offset - byteCount front) := by
    rw [h.bytes_eq, List.take_append, List.take_append, length_bytes, length_bytes,
      List.take_of_length_le (by rw [length_bytes]; exact hfront),
      Nat.sub_eq_zero_of_le (by omega : offset - byteCount front ≤ byteCount line),
      List.take_zero, List.append_nil]
  have hstop : (bytes front).reverse.dropWhile (· != newline) = (bytes front).reverse := by
    rcases h.front_ends with rfl | ⟨init, rfl⟩
    · rfl
    · rw [bytes_append, List.reverse_append, bytes_cons, utf8EncodeChar_newline]
      rfl
  rw [lineStart, htake, List.reverse_append, List.dropWhile_append_of_pos, hstop,
    List.length_reverse, length_bytes]
  intro b hb
  exact h.ne_newline (List.mem_of_mem_take (List.mem_reverse.mp hb))

/-- The line that an offset stands on ends where the line of the offset does. -/
theorem IsLine.lineEnd_eq (h : IsLine cs front line back) (hfront : byteCount front ≤ offset)
    (hline : offset ≤ byteCount (front ++ line)) :
    lineEnd (bytes cs) offset = byteCount (front ++ line) := by
  rw [byteCount_append] at hline ⊢
  have hdrop : (bytes cs).drop offset =
      (bytes line).drop (offset - byteCount front) ++ bytes back := by
    rw [h.bytes_eq, List.drop_append, List.drop_append, length_bytes, length_bytes,
      List.drop_of_length_le (by rw [length_bytes]; exact hfront), List.nil_append,
      Nat.sub_eq_zero_of_le (by omega : offset - byteCount front ≤ byteCount line),
      List.drop_zero]
  have hstop : (bytes back).takeWhile (· != newline) = [] := by
    rcases h.back_begins with rfl | ⟨rest, rfl⟩
    · rfl
    · rfl
  rw [lineEnd, hdrop, List.takeWhile_append_of_pos, hstop, List.append_nil, List.length_drop,
    length_bytes]
  · omega
  · intro b hb
    exact h.ne_newline (List.mem_of_mem_drop hb)

/-- The text of a line is the slice between its ends. -/
theorem IsLine.slice?_eq (h : IsLine cs front line back) :
    slice? (byteCount front) (byteCount (front ++ line)) cs = some line :=
  slice?_eq_some_iff.mpr ⟨front, back, h.eq_append, rfl, rfl⟩

end Text

/-! ## 2. The line of an offset in a document -/

namespace Document

variable {d : Document} {offset : Nat}

/-- **Every offset stands on a line of the text**, the one that the index gives. -/
theorem isLine_lineAt (h : offset ≤ d.length) :
    ∃ front line back, (d.text.toList.splitOn '\n')[d.lines.lineAt offset]? = some line ∧
      Text.IsLine d.text.toList front line back ∧
      d.lines.lineStart? (d.lines.lineAt offset) = some (Text.byteCount front) ∧
      d.lines.lineEnd (d.lines.lineAt offset) = Text.byteCount (front ++ line) ∧
      Text.byteCount front ≤ offset ∧ offset ≤ Text.byteCount (front ++ line) := by
  have hcount : d.lines.lineAt offset < (d.text.toList.splitOn '\n').length := by
    rw [LineIndex.length_splitOn_ofText]
    exact Nat.lt_succ_of_le (LineIndex.lineAt_le_length_breaks _ offset)
  obtain ⟨line, hpiece⟩ : ∃ line, (d.text.toList.splitOn '\n')[d.lines.lineAt offset]? =
      some line := ⟨_, List.getElem?_eq_getElem hcount⟩
  obtain ⟨front, back, hline, hstart, hend⟩ :
      ∃ front back, Text.IsLine d.text.toList front line back ∧
        d.lines.lineStart? (d.lines.lineAt offset) = some (Text.byteCount front) ∧
        d.lines.lineEnd (d.lines.lineAt offset) = Text.byteCount (front ++ line) :=
    LineIndex.isLine_ofText hpiece
  have hwf : d.lines.WellFormed := LineIndex.wellFormed_ofText d.text
  obtain ⟨hfront, hback⟩ := (hwf.lineAt_eq_iff hstart).mp ⟨h, rfl⟩
  exact ⟨front, line, back, hpiece, hline, hstart, hend, hfront, hend ▸ hback⟩

/-- The document gives the line that an offset stands on, with its text. -/
theorem lineAt?_of_le (h : offset ≤ d.length) :
    ∃ front line back, ∃ hle : Text.byteCount front ≤ Text.byteCount (front ++ line),
      Text.IsLine d.text.toList front line back ∧
      Text.byteCount front ≤ offset ∧ offset ≤ Text.byteCount (front ++ line) ∧
      d.lineAt? offset =
        some (⟨Text.byteCount front, Text.byteCount (front ++ line), hle⟩, String.ofList line) := by
  obtain ⟨front, line, back, -, hline, hstart, hend, hfront, hback⟩ := isLine_lineAt h
  have hle : Text.byteCount front ≤ Text.byteCount (front ++ line) := Nat.le_trans hfront hback
  refine ⟨front, line, back, hle, hline, hfront, hback, ?_⟩
  have hlength : offset ≤ d.lines.length := h
  have hwf : d.lines.WellFormed := LineIndex.wellFormed_ofText d.text
  have hrange : d.lineRangeAt? offset = some ⟨_, _, hle⟩ := by
    rw [lineRangeAt?, if_pos hlength, hwf.lineRange?_of_lineStart? hstart]
    simp only [hend]
  rw [lineAt?, hrange, Option.bind_some, slice?, hline.slice?_eq]
  rfl

/-- Beyond the text there are no lines. -/
theorem lineAt?_of_lt (h : d.length < offset) : d.lineAt? offset = none := by
  have hlines : ¬ offset ≤ d.lines.length := Nat.not_le.mpr h
  rw [lineAt?, lineRangeAt?, if_neg hlines]
  rfl

/-- A range has a span exactly when it fits into the text. -/
theorem isSome_span?_iff {range : TextRange} :
    (d.span? range).isSome ↔ range.stop ≤ d.length :=
  (LineIndex.wellFormed_ofText d.text).isSome_span?_iff

end Document
end UsageReport
