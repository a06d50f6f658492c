/-
# Offsets and positions

An offset of a text and the position of that offset say the same.  Both conversions are stated
through one fact (`position?_eq_some_iff`, `offset?_eq_some_iff`): the position lies on the line
of the offset, and its column is the distance from where that line starts.  They differ in what
they ask besides, which is that the offset does not lie beyond the text, or that it does not lie
beyond the line.  As lines share no offset and leave none out, the two questions are one
(`position?_eq_some_iff_offset?`).

The line number and the column of a `Position` have 32 bits, and an index keeps natural numbers.
No line number of a text and no column is larger than the text (`WellFormed.length_breaks_le`), so
below 4 GiB nothing is lost.
-/
import Mathlib.Algebra.Group.Nat.Defs
import Mathlib.Data.List.Perm.Subperm
import UsageReport.Proofs.Text.Lines

namespace UsageReport

/-- A number of 32 bits keeps its value. -/
theorem toNat_toUInt32_of_lt {n : Nat} (h : n < 2 ^ 32) : n.toUInt32.toNat = n :=
  UInt32.toNat_ofNat_of_lt' h

namespace LineIndex

variable {index : LineIndex} {offset : Nat} {p : Position}

/-- A text has no more breaks than bytes. -/
theorem WellFormed.length_breaks_le (h : index.WellFormed) :
    index.breaks.length ≤ index.length := by
  have hnodup : (0 :: index.breaks).Nodup := h.sorted.imp fun hlt => Nat.ne_of_lt hlt
  have hsub : (0 :: index.breaks) ⊆ List.range (index.length + 1) := by
    intro b hb
    rw [List.mem_range]
    rcases List.mem_cons.mp hb with rfl | hb
    · exact Nat.zero_lt_succ _
    · exact Nat.lt_succ_of_le (h.le_length b hb)
  have hlen := (List.subperm_of_subset hnodup hsub).length_le
  rw [List.length_cons, List.length_range] at hlen
  exact Nat.le_of_succ_le_succ hlen

/-- **What the position of an offset says.** -/
theorem WellFormed.position?_eq_some_iff (h : index.WellFormed) (hsize : index.length < 2 ^ 32) :
    index.position? offset = some p ↔
      ∃ start, index.lineStart? p.line.toNat = some start ∧ start + p.column.toNat = offset ∧
        offset ≤ index.length ∧ index.lineAt offset = p.line.toNat := by
  rw [position?]
  split
  · rename_i hlt
    simp only [reduceCtorEq, false_iff, not_exists, not_and]
    intro start _ _ hle
    omega
  · rename_i hle
    obtain ⟨start, hstart, hstart_le⟩ := h.exists_lineStart?_lineAt offset
    have hline : (index.lineAt offset).toUInt32.toNat = index.lineAt offset := by
      have := index.lineAt_le_length_breaks offset
      have := h.length_breaks_le
      exact toNat_toUInt32_of_lt (by omega)
    have hcolumn : (offset - start).toUInt32.toNat = offset - start :=
      toNat_toUInt32_of_lt (by omega)
    rw [hstart, Option.map_some, Option.some_inj]
    constructor
    · rintro rfl
      refine ⟨start, ?_, ?_, Nat.le_of_not_lt hle, hline.symm⟩
      · rw [hline, hstart]
      · rw [hcolumn]
        omega
    · rintro ⟨start', hstart', hsum, -, hline'⟩
      rw [← hline', hstart, Option.some_inj] at hstart'
      subst hstart'
      cases p with
      | mk line column =>
        rw [Position.mk.injEq, ← UInt32.toNat_inj, ← UInt32.toNat_inj, hline, hcolumn]
        exact ⟨hline', by dsimp only at hsum; omega⟩

/-- **What the offset of a position says.** -/
theorem offset?_eq_some_iff :
    index.offset? p = some offset ↔
      ∃ start, index.lineStart? p.line.toNat = some start ∧ start + p.column.toNat = offset ∧
        offset ≤ index.lineEnd p.line.toNat := by
  rw [offset?, Option.bind_eq_some_iff]
  refine exists_congr fun start => and_congr_right fun _ => ?_
  split
  · rw [Option.some_inj]
    constructor
    · rintro rfl
      exact ⟨rfl, by assumption⟩
    · exact And.left
  · simp only [reduceCtorEq, false_iff, not_and]
    rintro rfl
    assumption

/-- **The two conversions are inverse to each other.** -/
theorem WellFormed.position?_eq_some_iff_offset? (h : index.WellFormed)
    (hsize : index.length < 2 ^ 32) :
    index.position? offset = some p ↔ index.offset? p = some offset := by
  rw [h.position?_eq_some_iff hsize, offset?_eq_some_iff]
  refine exists_congr fun start => and_congr_right fun hstart => and_congr_right fun hsum => ?_
  rw [h.lineAt_eq_iff hstart]
  exact ⟨And.right, fun hend => ⟨by omega, hend⟩⟩

/-- An offset has a position exactly when it does not lie beyond the text. -/
theorem WellFormed.isSome_position?_iff (h : index.WellFormed) :
    (index.position? offset).isSome ↔ offset ≤ index.length := by
  obtain ⟨start, hstart, -⟩ := h.exists_lineStart?_lineAt offset
  rw [position?, hstart]
  split
  · rename_i hlt
    simpa using hlt
  · rename_i hle
    simpa using hle

/-- A range has a span exactly when it does not go beyond the text. -/
theorem WellFormed.isSome_span?_iff (h : index.WellFormed) {range : TextRange} :
    (index.span? range).isSome ↔ range.stop ≤ index.length := by
  have hstart : (index.position? range.start).isSome ↔ range.start ≤ index.length :=
    h.isSome_position?_iff
  have hstop : (index.position? range.stop).isSome ↔ range.stop ≤ index.length :=
    h.isSome_position?_iff
  rw [span?]
  cases hp : index.position? range.start with
  | none =>
    rw [hp] at hstart
    refine iff_of_false Bool.false_ne_true fun hle => Bool.false_ne_true ?_
    exact hstart.mpr (Nat.le_trans range.start_le_stop hle)
  | some p =>
    rw [Option.bind_some, Option.isSome_map]
    exact hstop

/-- A position has an offset exactly when its line exists and holds its column. -/
theorem isSome_offset?_ofText_iff (text : String) (p : Position) :
    ((ofText text).offset? p).isSome ↔
      ∃ line, (text.toList.splitOn '\n')[p.line.toNat]? = some line ∧
        p.column.toNat ≤ Text.byteCount line := by
  simp only [Option.isSome_iff_exists, offset?_eq_some_iff]
  constructor
  · rintro ⟨offset, start, hstart, rfl, hend⟩
    have hline : p.line.toNat < (text.toList.splitOn '\n').length := by
      rw [length_splitOn_ofText, ← isSome_lineStart?_iff, hstart]
      rfl
    refine ⟨_, List.getElem?_eq_getElem hline, ?_⟩
    obtain ⟨front, back, -, hstart', hend'⟩ := isLine_ofText (List.getElem?_eq_getElem hline)
    rw [hstart, Option.some_inj] at hstart'
    rw [hend', Text.byteCount_append, hstart'] at hend
    omega
  · rintro ⟨line, hline, hcolumn⟩
    obtain ⟨front, back, -, hstart, hend⟩ := isLine_ofText hline
    refine ⟨_, _, hstart, rfl, ?_⟩
    rw [hend, Text.byteCount_append]
    omega

end LineIndex
end UsageReport
