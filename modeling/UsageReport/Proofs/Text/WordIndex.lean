/-
# A line index in words of 32 bits

A line index counts in natural numbers, which have no upper end, and where it subtracts it stops
at zero.  This file goes through the same computations in words of 32 bits (`WordIndex`): a table
of line starts with the zero in front, built byte by byte, and conversions that add and subtract
words.  A step that would leave the words has no result (`Checked`), and neither has a range whose
ends are not in order.

For a text shorter than 4 GiB every computation has a result, and it is the one of the index
(`ofBytes_represents`, `Represents.position?_eq`, `Represents.offset?_eq`,
`Represents.lineRange?_eq`).  Why nothing goes wrong is said by three facts: a newline at some
offset leaves room for the offset behind it, a line starts at its offsets or before them, and a
line that is not the first one starts above zero.  The one sum that may leave the words is that of
a line start and a column somebody asks for, and then there is no such column.

The main statement (`position?_offset?_inverse`) puts this together with the two conversions being
inverse to each other.
-/
import UsageReport.Proofs.Text.Position

namespace UsageReport

/-! ## 1. Computing in words -/

/-- A result, if no step on the way to it leaves the words. -/
abbrev Checked (α : Type) := Option α

namespace Checked

/-- A number as a word. -/
def narrow (n : Nat) : Checked UInt32 := if n < 2 ^ 32 then some n.toUInt32 else none

/-- The sum of two words. -/
def add (a b : UInt32) : Checked UInt32 := narrow (a.toNat + b.toNat)

/-- The difference of two words. -/
def sub (a b : UInt32) : Checked UInt32 := if b ≤ a then some (a - b) else none

theorem narrow_of_lt {n : Nat} (h : n < 2 ^ 32) : narrow n = some n.toUInt32 := if_pos h

theorem sub_of_le {a b : UInt32} (h : b ≤ a) : sub a b = some (a.toNat - b.toNat).toUInt32 := by
  rw [sub, if_pos h, Option.some_inj, ← UInt32.toNat_inj, UInt32.toNat_sub_of_le _ _ h,
    toNat_toUInt32_of_lt]
  have := a.toNat_lt
  omega

end Checked

/-- A line index in words. -/
structure WordIndex where
  /-- Where each line starts, the first one at zero. -/
  starts : List UInt32
  length : UInt32

namespace WordIndex

/-- The offsets behind the newlines of some bytes, which stand from `offset` on. -/
def startsFrom (offset : Nat) : List UInt8 → Checked (List UInt32)
  | [] => some []
  | b :: bs =>
    if b = Text.newline then do
      let start ← Checked.add (← Checked.narrow offset) 1
      let starts ← startsFrom (offset + 1) bs
      return start :: starts
    else startsFrom (offset + 1) bs

/-- The index of a text, from its bytes. -/
def ofBytes (bs : List UInt8) : Checked WordIndex := do
  let starts ← startsFrom 0 bs
  let length ← Checked.narrow bs.length
  return ⟨0 :: starts, length⟩

/-- Where a line ends: before its newline, or at the end of the text for the last line. -/
def lineEnd (t : WordIndex) (line : Nat) : Checked UInt32 :=
  match t.starts[line + 1]? with
  | some next => Checked.sub next 1
  | none => some t.length

/-- The range of a line, without its newline. -/
def lineRange? (t : WordIndex) (line : UInt32) : Checked (Option TextRange) :=
  match t.starts[line.toNat]? with
  | none => some none
  | some start => do
    let stop ← t.lineEnd line.toNat
    let range ← TextRange.ofBounds? start.toNat stop.toNat
    return some range

/-- The position of an offset.  Of the starts at the offset or before it, the last one is that of
its line.  As the table is sorted, these starts are the ones in front, and a search by halving
counts as many of them. -/
def position? (t : WordIndex) (offset : UInt32) : Checked (Option Position) :=
  if t.length < offset then some none
  else
    match (t.starts.takeWhile (· ≤ offset)).length with
    | 0 => none
    | line + 1 => do
      let start ← t.starts[line]?
      let column ← Checked.sub offset start
      let line ← Checked.narrow line
      return some ⟨line, column⟩

/-- The offset of a position.  A sum that leaves the words is not a fault: the line has no such
column. -/
def offset? (t : WordIndex) (p : Position) : Checked (Option UInt32) :=
  match t.starts[p.line.toNat]? with
  | none => some none
  | some start => do
    let stop ← t.lineEnd p.line.toNat
    return (Checked.add start p.column).filter (· ≤ stop)

/-! ## 2. Words for an index -/

/-- The words of the table are the numbers of the index. -/
structure Represents (t : WordIndex) (index : LineIndex) : Prop where
  starts : t.starts.map UInt32.toNat = 0 :: index.breaks
  length : t.length.toNat = index.length

/-- Bytes without a newline have no line start behind them. -/
theorem startsFrom_append {front : List UInt8} (h : Text.newline ∉ front) (offset : Nat)
    (bs : List UInt8) :
    startsFrom offset (front ++ bs) = startsFrom (offset + front.length) bs := by
  induction front generalizing offset with
  | nil => rfl
  | cons b front ih =>
    rw [List.mem_cons, not_or] at h
    rw [List.cons_append, startsFrom, if_neg (Ne.symm h.1), ih h.2, List.length_cons,
      Nat.add_right_comm, Nat.add_assoc]

/-- **The byte loop finds the breaks**, and each of them is a word. -/
theorem startsFrom_bytes {offset : Nat} {cs : List Char}
    (h : offset + Text.byteCount cs < 2 ^ 32) :
    ∃ starts, startsFrom offset (Text.bytes cs) = some starts ∧
      starts.map UInt32.toNat = LineIndex.breaksFrom offset cs := by
  induction cs generalizing offset with
  | nil => exact ⟨[], rfl, rfl⟩
  | cons c cs ih =>
    rw [Text.byteCount_cons, ← Nat.add_assoc] at h
    obtain ⟨starts, hstarts, hmap⟩ := ih h
    rw [Text.bytes_cons, LineIndex.breaksFrom]
    by_cases hc : c = '\n'
    · subst hc
      rw [Text.utf8Size_newline] at h hstarts hmap ⊢
      have hoffset : offset.toUInt32.toNat = offset := toNat_toUInt32_of_lt (by omega)
      have hadd : Checked.add offset.toUInt32 1 = some (offset + 1).toUInt32 := by
        rw [Checked.add, hoffset, UInt32.toNat_one]
        exact Checked.narrow_of_lt (by omega)
      refine ⟨(offset + 1).toUInt32 :: starts, ?_, ?_⟩
      · rw [Text.utf8EncodeChar_newline, List.singleton_append, startsFrom, if_pos rfl,
          Checked.narrow_of_lt (by omega), hstarts]
        simp only [Option.bind_eq_bind, Option.bind_some, hadd]
        rfl
      · rw [List.map_cons, hmap, if_pos rfl, toNat_toUInt32_of_lt (by omega)]
    · have hfront : Text.newline ∉ String.utf8EncodeChar c := fun hmem =>
        hc (Text.newline_mem_utf8EncodeChar_iff.mp hmem)
      rw [startsFrom_append hfront, String.length_utf8EncodeChar, if_neg hc]
      exact ⟨starts, hstarts, hmap⟩

/-- **The index of a text shorter than 4 GiB can be built in words.** -/
theorem ofBytes_represents {text : String} (h : Text.byteCount text.toList < 2 ^ 32) :
    ∃ t, ofBytes (Text.bytes text.toList) = some t ∧ t.Represents (.ofText text) := by
  have hzero : 0 + Text.byteCount text.toList < 2 ^ 32 := by omega
  obtain ⟨starts, hstarts, hmap⟩ := startsFrom_bytes hzero
  refine ⟨⟨0 :: starts, (Text.byteCount text.toList).toUInt32⟩, ?_, ?_, ?_⟩
  · rw [ofBytes, hstarts, Text.length_bytes, Checked.narrow_of_lt h]
    rfl
  · rw [List.map_cons, hmap]
    rfl
  · exact toNat_toUInt32_of_lt h

/-- **The index can be built for no longer text.** -/
theorem isSome_ofBytes_iff {text : String} :
    (ofBytes (Text.bytes text.toList)).isSome ↔ Text.byteCount text.toList < 2 ^ 32 := by
  constructor
  · intro h
    by_contra hlong
    have hnarrow : Checked.narrow (Text.bytes text.toList).length = none := by
      rw [Text.length_bytes, Checked.narrow, if_neg hlong]
    rw [ofBytes, hnarrow] at h
    cases hstarts : startsFrom 0 (Text.bytes text.toList) with
    | none => simp [hstarts] at h
    | some starts => simp [hstarts] at h
  · intro h
    obtain ⟨t, hbuilt, -⟩ := ofBytes_represents h
    rw [hbuilt]
    rfl

/-! ## 3. Conversions in words -/

namespace Represents

variable {t : WordIndex} {index : LineIndex}

theorem length_lt (h : t.Represents index) : index.length < 2 ^ 32 := by
  rw [← h.length]
  exact t.length.toNat_lt

/-- A line starts in the table where it starts in the index. -/
theorem lineStart?_eq (h : t.Represents index) (line : Nat) :
    index.lineStart? line = t.starts[line]?.map UInt32.toNat := by
  rw [LineIndex.lineStart?, ← h.starts, List.getElem?_map]

theorem getElem?_breaks (h : t.Represents index) (line : Nat) :
    index.breaks[line]? = t.starts[line + 1]?.map UInt32.toNat := by
  rw [← List.getElem?_map, h.starts, List.getElem?_cons_succ]

/-- **Where a line ends can be found in words**: the start of a later line is not zero. -/
theorem lineEnd_eq (h : t.Represents index) (hwf : index.WellFormed) (line : Nat) :
    ∃ stop, t.lineEnd line = some stop ∧ stop.toNat = index.lineEnd line := by
  rw [lineEnd, LineIndex.lineEnd, h.getElem?_breaks]
  cases hnext : t.starts[line + 1]? with
  | none => exact ⟨t.length, rfl, h.length⟩
  | some next =>
    have hmem : next.toNat ∈ index.breaks := by
      refine List.mem_of_getElem? (i := line) ?_
      rw [h.getElem?_breaks, hnext]
      rfl
    have hpos : 0 < next.toNat := (List.pairwise_cons.mp hwf.sorted).1 _ hmem
    have hone : (1 : UInt32) ≤ next := by
      rw [UInt32.le_iff_toNat_le]
      exact hpos
    refine ⟨_, Checked.sub_of_le hone, ?_⟩
    rw [toNat_toUInt32_of_lt]
    · rfl
    · have := next.toNat_lt
      omega

/-- **The search for an offset ends behind the start of its line.** -/
theorem length_takeWhile (h : t.Represents index) (hwf : index.WellFormed) (offset : UInt32) :
    (t.starts.takeWhile (· ≤ offset)).length = index.lineAt offset.toNat + 1 := by
  have hwords : (fun start : UInt32 => decide (start ≤ offset)) =
      (fun n : Nat => decide (n ≤ offset.toNat)) ∘ UInt32.toNat := by
    funext start
    exact decide_eq_decide.mpr UInt32.le_iff_toNat_le
  rw [hwords, ← List.length_map UInt32.toNat, ← List.takeWhile_map, h.starts,
    LineIndex.length_takeWhile_eq_countP hwf.sorted, List.countP_cons]
  simp [LineIndex.lineAt]

/-- **Positions can be found in words**, and they are those of the index. -/
theorem position?_eq (h : t.Represents index) (hwf : index.WellFormed) (offset : UInt32) :
    t.position? offset = some (index.position? offset.toNat) := by
  have hbeyond : t.length < offset ↔ index.length < offset.toNat := by
    rw [UInt32.lt_iff_toNat_lt, h.length]
  rw [position?, LineIndex.position?]
  by_cases hlt : index.length < offset.toNat
  · rw [if_pos hlt, if_pos (hbeyond.mpr hlt)]
  · rw [if_neg hlt, if_neg (mt hbeyond.mp hlt)]
    obtain ⟨start, hstart, hle⟩ := hwf.exists_lineStart?_lineAt offset.toNat
    have hcount : index.lineAt offset.toNat < 2 ^ 32 := by
      have := index.lineAt_le_length_breaks offset.toNat
      have := hwf.length_breaks_le
      have := h.length_lt
      omega
    rw [hstart, h.length_takeWhile hwf]
    rw [h.lineStart?_eq] at hstart
    obtain ⟨word, hword, rfl⟩ := Option.map_eq_some_iff.mp hstart
    simp only [hword, Option.bind_eq_bind, Option.bind_some,
      Checked.sub_of_le (UInt32.le_iff_toNat_le.mpr hle), Checked.narrow_of_lt hcount]
    rfl

/-- **Offsets can be found in words**, and they are those of the index.  A column so large that
the sum leaves the words lies behind the end of its line. -/
theorem offset?_eq (h : t.Represents index) (hwf : index.WellFormed) (p : Position) :
    t.offset? p = some ((index.offset? p).map Nat.toUInt32) := by
  rw [offset?, LineIndex.offset?, h.lineStart?_eq]
  cases t.starts[p.line.toNat]? with
  | none => rfl
  | some start =>
    obtain ⟨stop, hstop, hend⟩ := h.lineEnd_eq hwf p.line.toNat
    simp only [hstop, Option.bind_eq_bind, Option.bind_some, Option.map_some, Checked.add]
    rw [← hend]
    by_cases hsum : start.toNat + p.column.toNat < 2 ^ 32
    · have hle : (start.toNat + p.column.toNat).toUInt32 ≤ stop ↔
          start.toNat + p.column.toNat ≤ stop.toNat := by
        rw [UInt32.le_iff_toNat_le, toNat_toUInt32_of_lt hsum]
      rw [Checked.narrow_of_lt hsum, Option.filter_some]
      by_cases hcolumn : start.toNat + p.column.toNat ≤ stop.toNat
      · rw [if_pos (decide_eq_true (hle.mpr hcolumn)), if_pos hcolumn]
        rfl
      · rw [if_neg (mt of_decide_eq_true (mt hle.mp hcolumn)), if_neg hcolumn]
        rfl
    · have := stop.toNat_lt
      rw [Checked.narrow, if_neg hsum, if_neg (by omega)]
      rfl

/-- **Lines can be found in words**, and no line ends before it starts. -/
theorem lineRange?_eq (h : t.Represents index) (hwf : index.WellFormed) (line : UInt32) :
    t.lineRange? line = some (index.lineRange? line.toNat) := by
  rw [lineRange?, LineIndex.lineRange?, h.lineStart?_eq]
  cases hstart : t.starts[line.toNat]? with
  | none => rfl
  | some start =>
    obtain ⟨stop, hstop, hend⟩ := h.lineEnd_eq hwf line.toNat
    have hline : index.lineStart? line.toNat = some start.toNat := by
      rw [h.lineStart?_eq, hstart]
      rfl
    have hle := hwf.lineStart_le_lineEnd hline
    have hrange : TextRange.ofBounds? start.toNat (index.lineEnd line.toNat) =
        some ⟨start.toNat, index.lineEnd line.toNat, hle⟩ :=
      TextRange.ofBounds?_eq_some_iff.mpr ⟨rfl, rfl⟩
    simp only [hstop, hend, hrange, Option.bind_eq_bind, Option.bind_some, Option.map_some]
    rfl

end Represents
end WordIndex

/-! ## 4. The main statement -/

/-- **Offsets and positions of a text shorter than 4 GiB are inverse to each other.**  The offsets
are those up to its length, and the positions are those on one of its lines, with a column up to
the length of that line.  The line of an offset is the number of newlines before it.  Nothing of
this leaves the words. -/
theorem LineIndex.position?_offset?_inverse (text : String)
    (hsize : Text.byteCount text.toList < 2 ^ 32) :
    let index := LineIndex.ofText text
    let bs := Text.bytes text.toList
    let lines := text.toList.splitOn '\n'
    (∀ offset p, index.position? offset = some p ↔ index.offset? p = some offset) ∧
    (∀ offset, (index.position? offset).isSome ↔ offset ≤ bs.length) ∧
    (∀ p, (index.offset? p).isSome ↔
      ∃ line, lines[p.line.toNat]? = some line ∧ p.column.toNat ≤ (Text.bytes line).length) ∧
    lines.length = index.lineCount ∧
    index.lineCount = bs.count Text.newline + 1 ∧
    (∀ offset p, index.position? offset = some p →
      p.line.toNat = (bs.take offset).count Text.newline) ∧
    ∃ t, WordIndex.ofBytes bs = some t ∧
      (∀ offset, t.position? offset = some (index.position? offset.toNat)) ∧
      (∀ p, t.offset? p = some ((index.offset? p).map Nat.toUInt32)) ∧
      ∀ line, t.lineRange? line = some (index.lineRange? line.toNat) := by
  have hwf := wellFormed_ofText text
  obtain ⟨t, hbuilt, ht⟩ := WordIndex.ofBytes_represents hsize
  refine ⟨fun offset p => hwf.position?_eq_some_iff_offset? hsize, ?_, ?_,
    length_splitOn_ofText text, lineCount_ofText text, ?_,
    t, hbuilt, ht.position?_eq hwf, ht.offset?_eq hwf, ht.lineRange?_eq hwf⟩
  · intro offset
    rw [Text.length_bytes]
    exact hwf.isSome_position?_iff
  · intro p
    simp only [Text.length_bytes]
    exact isSome_offset?_ofText_iff text p
  · intro offset p hp
    obtain ⟨-, -, -, -, hline⟩ := (hwf.position?_eq_some_iff hsize).mp hp
    rw [← hline, lineAt_ofText]

/-- A text with a character of two bytes: the offset inside it has a position and gets it back,
and a column whose sum with the line start leaves the words has no offset. -/
theorem LineIndex.position?_offset?_inverse_sample :
    (LineIndex.ofText "é\nb").offset? ⟨0, 1⟩ = some 1 ∧
      ((LineIndex.ofText "é\nb").offset? ⟨1, 4294967295⟩).isSome = false := by
  have hsize : Text.byteCount "é\nb".toList < 2 ^ 32 := by decide
  obtain ⟨hinverse, -, hdomain, -⟩ := position?_offset?_inverse "é\nb" hsize
  refine ⟨(hinverse 1 ⟨0, 1⟩).mp (by decide), ?_⟩
  rw [← Bool.not_eq_true, hdomain]
  rintro ⟨line, hline, hcolumn⟩
  have hb : ("é\nb".toList.splitOn '\n')[1]? = some ['b'] := by decide
  cases hb.symm.trans hline
  exact absurd hcolumn (by decide)

end UsageReport
