/-
# Lines of a text

A text is cut into lines at its newline bytes.  A line index does not look at bytes: it goes
through the characters and adds up their sizes.  Both come to the same, because no character but
the newline has a newline among its bytes (`newline_mem_utf8EncodeChar_iff`).  So the line of an
offset is the number of newline bytes before it, also for an offset inside a character
(`lineAt_ofText`).

All else rests on one property of the index: its breaks stand in increasing order, above zero and
not beyond the text (`WellFormed`).  From it alone follows that the lines of an index share no
offset and leave none out (`WellFormed.lineAt_eq_iff`), with the newline at the end of a line
counted to that line.

What stands on a line is a piece of the text split at newlines (`isLine_ofText`).  Hence the ends
of a line are character boundaries.
-/
import UsageReport.Text.LineIndex
import Mathlib.Tactic.Common

namespace UsageReport

/-! ## 1. The bytes of a text -/

namespace Text

/-- The UTF-8 bytes of a run of characters. -/
def bytes (cs : List Char) : List UInt8 := cs.flatMap String.utf8EncodeChar

/-- The byte that ends a line. -/
def newline : UInt8 := 10

@[simp] theorem bytes_nil : bytes [] = [] := rfl

@[simp] theorem bytes_cons (c : Char) (cs : List Char) :
    bytes (c :: cs) = String.utf8EncodeChar c ++ bytes cs := rfl

@[simp] theorem bytes_append (xs ys : List Char) : bytes (xs ++ ys) = bytes xs ++ bytes ys :=
  List.flatMap_append

@[simp] theorem length_bytes (cs : List Char) : (bytes cs).length = byteCount cs := by
  induction cs with
  | nil => rfl
  | cons c cs ih => simp [ih]

theorem newline_eq_ofNat_iff {n : Nat} (h : n < 256) : newline = UInt8.ofNat n ↔ n = 10 := by
  rw [← UInt8.toNat_inj, UInt8.toNat_ofNat_of_lt' h]
  exact eq_comm

/-- **Only the newline has a newline among its bytes.**  All bytes of a character that takes more
than one are 128 at least. -/
theorem newline_mem_utf8EncodeChar_iff {c : Char} :
    newline ∈ String.utf8EncodeChar c ↔ c = '\n' := by
  constructor
  · intro h
    have hc : c.val.toNat = 10 := by
      unfold String.utf8EncodeChar at h
      simp only at h
      split_ifs at h
      all_goals
        simp (disch := omega) only [List.mem_cons, List.not_mem_nil, or_false,
          newline_eq_ofNat_iff] at h
        omega
    exact Char.ext (UInt32.toNat_inj.mp hc)
  · rintro rfl
    decide

/-- A newline byte stands in a text where a newline stands. -/
theorem newline_mem_bytes_iff {cs : List Char} : newline ∈ bytes cs ↔ '\n' ∈ cs := by
  simp [bytes, newline_mem_utf8EncodeChar_iff]

theorem utf8EncodeChar_newline : String.utf8EncodeChar '\n' = [newline] := by decide

theorem utf8Size_newline : '\n'.utf8Size = 1 := by decide

/-- No beginning of the bytes of another character has a newline. -/
theorem count_take_utf8EncodeChar {c : Char} (hc : c ≠ '\n') (n : Nat) :
    ((String.utf8EncodeChar c).take n).count newline = 0 := by
  rw [List.count_eq_zero]
  intro h
  exact hc (newline_mem_utf8EncodeChar_iff.mp (List.mem_of_mem_take h))

end Text

namespace LineIndex

/-! ## 2. The breaks of a text -/

/-- **Breaks come in order**, and all of them behind the offset at which the text begins. -/
theorem pairwise_breaksFrom (base : Nat) (cs : List Char) :
    (base :: breaksFrom base cs).Pairwise (· < ·) := by
  induction cs generalizing base with
  | nil => simp [breaksFrom]
  | cons c cs ih =>
    have hc := c.utf8Size_pos
    obtain ⟨hhead, htail⟩ := List.pairwise_cons.mp (ih (base + c.utf8Size))
    rw [breaksFrom]
    split
    · refine List.pairwise_cons.mpr ⟨?_, ih (base + c.utf8Size)⟩
      intro b hb
      rcases List.mem_cons.mp hb with rfl | hb
      · omega
      · exact Nat.lt_trans (by omega) (hhead b hb)
    · refine List.pairwise_cons.mpr ⟨?_, htail⟩
      intro b hb
      exact Nat.lt_trans (by omega) (hhead b hb)

/-- No break lies beyond the text. -/
theorem le_of_mem_breaksFrom {base b : Nat} {cs : List Char} (h : b ∈ breaksFrom base cs) :
    b ≤ base + Text.byteCount cs := by
  induction cs generalizing base with
  | nil => simp [breaksFrom] at h
  | cons c cs ih =>
    rw [Text.byteCount_cons, ← Nat.add_assoc]
    rw [breaksFrom] at h
    split at h
    · rcases List.mem_cons.mp h with rfl | h
      · exact Nat.le_add_right _ _
      · exact ih h
    · exact ih h

/-- Of entries that are all above a bound none is up to it. -/
theorem countP_le_eq_zero {xs : List Nat} {bound : Nat} (h : ∀ x ∈ xs, bound < x) :
    xs.countP (· ≤ bound) = 0 := by
  rw [List.countP_eq_zero]
  intro x hx
  rw [decide_eq_true_eq, Nat.not_le]
  exact h x hx

/-- At its beginning a text has no break yet. -/
theorem countP_breaksFrom_of_le {base offset : Nat} (cs : List Char) (h : offset ≤ base) :
    (breaksFrom base cs).countP (· ≤ offset) = 0 := by
  obtain ⟨hbreaks, -⟩ := List.pairwise_cons.mp (pairwise_breaksFrom base cs)
  exact countP_le_eq_zero fun b hb => Nat.lt_of_le_of_lt h (hbreaks b hb)

/-- **The breaks up to an offset are the newline bytes before it.** -/
theorem countP_breaksFrom (base n : Nat) (cs : List Char) :
    (breaksFrom base cs).countP (· ≤ base + n) =
      ((Text.bytes cs).take n).count Text.newline := by
  induction cs generalizing base n with
  | nil => simp [breaksFrom]
  | cons c cs ih =>
    rw [Text.bytes_cons, List.take_append, List.count_append, String.length_utf8EncodeChar,
      ← ih (base + c.utf8Size), breaksFrom]
    by_cases hc : c = '\n'
    · subst hc
      rw [if_pos rfl, List.countP_cons, Text.utf8EncodeChar_newline, Text.utf8Size_newline]
      cases n with
      | zero => simp [countP_breaksFrom_of_le]
      | succ n =>
        have hoffset : base + 1 + (n + 1 - 1) = base + (n + 1) := by omega
        rw [hoffset, Nat.add_comm]
        simp
    · rw [if_neg hc, Text.count_take_utf8EncodeChar hc, Nat.zero_add]
      by_cases hn : c.utf8Size ≤ n
      · have hoffset : base + c.utf8Size + (n - c.utf8Size) = base + n := by omega
        rw [hoffset]
      · -- Inside the character: the breaks of the rest are all still to come.
        rw [countP_breaksFrom_of_le cs (by omega), countP_breaksFrom_of_le cs (by omega)]

/-- **The line of an offset is the number of newline bytes before it.** -/
theorem lineAt_ofText (text : String) (offset : Nat) :
    (ofText text).lineAt offset = ((Text.bytes text.toList).take offset).count Text.newline := by
  have h := countP_breaksFrom 0 offset text.toList
  rwa [Nat.zero_add] at h

/-- There is one line more than there are newline bytes. -/
theorem lineCount_ofText (text : String) :
    (ofText text).lineCount = (Text.bytes text.toList).count Text.newline + 1 := by
  have hcount := lineAt_ofText text (Text.byteCount text.toList)
  rw [← Text.length_bytes, List.take_length] at hcount
  rw [← hcount, lineCount, lineAt, Nat.add_right_cancel_iff, eq_comm, List.countP_eq_length]
  intro b hb
  have := le_of_mem_breaksFrom hb
  simpa using this

/-! ## 3. Lines as stretches of offsets -/

/-- The breaks of the index come in order, above zero and not beyond the text. -/
structure WellFormed (index : LineIndex) : Prop where
  sorted : (0 :: index.breaks).Pairwise (· < ·)
  le_length : ∀ b ∈ index.breaks, b ≤ index.length

theorem wellFormed_ofText (text : String) : (ofText text).WellFormed where
  sorted := pairwise_breaksFrom 0 text.toList
  le_length := by
    intro b hb
    have := le_of_mem_breaksFrom hb
    rwa [Nat.zero_add] at this

/-- **How a search in a sorted list ends**: the entries up to a bound are those in front. -/
theorem le_iff_lt_countP {xs : List Nat} (h : xs.Pairwise (· < ·)) (bound : Nat) {i x : Nat}
    (hx : xs[i]? = some x) : x ≤ bound ↔ i < xs.countP (· ≤ bound) := by
  induction xs generalizing i with
  | nil => simp at hx
  | cons y ys ih =>
    obtain ⟨hy, hys⟩ := List.pairwise_cons.mp h
    rw [List.countP_cons]
    by_cases hbound : y ≤ bound
    · cases i with
      | zero =>
        cases hx
        simp [hbound]
      | succ i =>
        rw [List.getElem?_cons_succ] at hx
        simp [ih hys hx, hbound]
    · -- Then no later entry is below the bound either.
      have hnone : ys.countP (· ≤ bound) = 0 :=
        countP_le_eq_zero fun z hz => Nat.lt_trans (Nat.lt_of_not_le hbound) (hy z hz)
      have hle : y ≤ x := by
        rcases List.mem_cons.mp (List.mem_of_getElem? hx) with rfl | hmem
        · exact Nat.le_refl x
        · exact Nat.le_of_lt (hy x hmem)
      simp only [hnone, decide_eq_true_eq, hbound, if_false]
      omega

/-- In a sorted list the entries in front up to a bound are all that there are. -/
theorem length_takeWhile_eq_countP {xs : List Nat} (h : xs.Pairwise (· < ·)) (bound : Nat) :
    (xs.takeWhile (· ≤ bound)).length = xs.countP (· ≤ bound) := by
  induction xs with
  | nil => rfl
  | cons x xs ih =>
    obtain ⟨hx, hxs⟩ := List.pairwise_cons.mp h
    rw [List.takeWhile_cons, List.countP_cons]
    by_cases hbound : x ≤ bound
    · simp [hbound, ih hxs]
    · have hnone : xs.countP (· ≤ bound) = 0 :=
        countP_le_eq_zero fun y hy => Nat.lt_trans (Nat.lt_of_not_le hbound) (hx y hy)
      simp [hbound, hnone]

variable {index : LineIndex} {line offset start : Nat}

theorem lineAt_le_length_breaks (index : LineIndex) (offset : Nat) :
    index.lineAt offset ≤ index.breaks.length := List.countP_le_length

/-- There are lines up to the number of breaks. -/
theorem isSome_lineStart?_iff : (index.lineStart? line).isSome ↔ line < index.lineCount := by
  rw [lineStart?, isSome_getElem?, List.length_cons, lineCount]

theorem WellFormed.le_lineAt_of_lineStart? (h : index.WellFormed)
    (hstart : index.lineStart? line = some start) :
    start ≤ offset ↔ line ≤ index.lineAt offset := by
  cases line with
  | zero =>
    cases hstart
    simp
  | succ line => exact le_iff_lt_countP (List.pairwise_cons.mp h.sorted).2 offset hstart

/-- A line that begins ends at its beginning or behind it. -/
theorem WellFormed.le_lineEnd_iff (h : index.WellFormed) (hoffset : offset ≤ index.length) :
    offset ≤ index.lineEnd line ↔ index.lineAt offset ≤ line := by
  rw [lineEnd]
  split
  · rename_i next hnext
    obtain ⟨hpos, hsorted⟩ := List.pairwise_cons.mp h.sorted
    have hnext_pos : 0 < next := hpos next (List.mem_of_getElem? hnext)
    have := le_iff_lt_countP hsorted offset hnext
    rw [lineAt]
    omega
  · rename_i hnext
    have hlen : index.breaks.length ≤ line := List.getElem?_eq_none_iff.mp hnext
    have := index.lineAt_le_length_breaks offset
    omega

theorem WellFormed.lineEnd_le_length (h : index.WellFormed) (line : Nat) :
    index.lineEnd line ≤ index.length := by
  rw [lineEnd]
  split
  · rename_i next hnext
    have := h.le_length next (List.mem_of_getElem? hnext)
    omega
  · exact Nat.le_refl _

/-- **The lines of an index share no offset and leave none out.** -/
theorem WellFormed.lineAt_eq_iff (h : index.WellFormed)
    (hstart : index.lineStart? line = some start) :
    offset ≤ index.length ∧ index.lineAt offset = line ↔
      start ≤ offset ∧ offset ≤ index.lineEnd line := by
  rw [h.le_lineAt_of_lineStart? hstart]
  constructor
  · rintro ⟨hoffset, rfl⟩
    exact ⟨Nat.le_refl _, (h.le_lineEnd_iff hoffset).mpr (Nat.le_refl _)⟩
  · rintro ⟨hle, hend⟩
    have hoffset := Nat.le_trans hend (h.lineEnd_le_length line)
    exact ⟨hoffset, Nat.le_antisymm ((h.le_lineEnd_iff hoffset).mp hend) hle⟩

/-- Every offset has a line, which begins at the offset or before it. -/
theorem WellFormed.exists_lineStart?_lineAt (h : index.WellFormed) (offset : Nat) :
    ∃ start, index.lineStart? (index.lineAt offset) = some start ∧ start ≤ offset := by
  have hline : (index.lineStart? (index.lineAt offset)).isSome :=
    isSome_lineStart?_iff.mpr (Nat.lt_succ_of_le (index.lineAt_le_length_breaks offset))
  obtain ⟨start, hstart⟩ := Option.isSome_iff_exists.mp hline
  exact ⟨start, hstart, (h.le_lineAt_of_lineStart? hstart).mpr (Nat.le_refl _)⟩

/-- A line does not end before it begins. -/
theorem WellFormed.lineStart_le_lineEnd (h : index.WellFormed)
    (hstart : index.lineStart? line = some start) : start ≤ index.lineEnd line := by
  rw [lineEnd]
  split
  · rename_i next hnext
    rw [lineStart?] at hstart
    obtain ⟨hline, rfl⟩ := List.getElem?_eq_some_iff.mp hstart
    have hnext' : (0 :: index.breaks)[line + 1]? = some next := hnext
    obtain ⟨hline', rfl⟩ := List.getElem?_eq_some_iff.mp hnext'
    have := List.pairwise_iff_getElem.mp h.sorted line (line + 1) hline hline' (by omega)
    omega
  · rcases List.mem_cons.mp (List.mem_of_getElem? hstart) with rfl | hmem
    · exact Nat.zero_le _
    · exact h.le_length start hmem

/-- The range of a line goes from where it begins to where it ends. -/
theorem WellFormed.lineRange?_of_lineStart? (h : index.WellFormed)
    (hstart : index.lineStart? line = some start) :
    index.lineRange? line =
      some ⟨start, index.lineEnd line, h.lineStart_le_lineEnd hstart⟩ := by
  rw [lineRange?, hstart]
  exact TextRange.ofBounds?_eq_some_iff.mpr ⟨rfl, rfl⟩

/-- **There are ranges for as many lines as the index counts**, and for no more. -/
theorem WellFormed.lineRange?_eq_none_iff (h : index.WellFormed) :
    index.lineRange? line = none ↔ index.lineCount ≤ line := by
  rw [← Nat.not_lt, ← isSome_lineStart?_iff]
  cases hstart : index.lineStart? line with
  | none => simp [lineRange?, hstart]
  | some start => simp [h.lineRange?_of_lineStart? hstart]

end LineIndex

/-! ## 4. What stands on a line -/

namespace Text

/-- A text with one of its lines marked: what is in front of the line, the line without its
newline, and what is behind it. -/
structure IsLine (cs front line back : List Char) : Prop where
  eq_append : cs = front ++ line ++ back
  newline_not_mem : '\n' ∉ line
  front_ends : front = [] ∨ ['\n'] <:+ front
  back_begins : back = [] ∨ ['\n'] <+: back

/-- **Induction over the lines of a text.**  It is one line, or a line, a newline and a text. -/
theorem line_induction {P : List Char → Prop} (last : ∀ line, '\n' ∉ line → P line)
    (cons : ∀ line rest, '\n' ∉ line → P rest → P (line ++ '\n' :: rest)) (cs : List Char) :
    P cs := by
  by_cases hmem : '\n' ∈ cs
  · obtain ⟨line, rest, hcs, hline⟩ := List.eq_append_cons_of_mem hmem
    have hshorter : rest.length < cs.length := by
      rw [hcs, List.length_append, List.length_cons]
      omega
    rw [hcs]
    exact cons line rest hline (line_induction last cons rest)
  · exact last cs hmem
termination_by cs.length

end Text

namespace LineIndex

/-- A line has no breaks of its own. -/
theorem breaksFrom_append {line : List Char} (h : '\n' ∉ line) (base : Nat) (rest : List Char) :
    breaksFrom base (line ++ rest) = breaksFrom (base + Text.byteCount line) rest := by
  induction line generalizing base with
  | nil => rfl
  | cons c line ih =>
    rw [List.mem_cons, not_or] at h
    rw [List.cons_append, breaksFrom, if_neg (Ne.symm h.1), ih h.2, Text.byteCount_cons,
      Nat.add_assoc]

theorem breaksFrom_of_not_mem {line : List Char} (h : '\n' ∉ line) (base : Nat) :
    breaksFrom base line = [] := by
  rw [← List.append_nil line, breaksFrom_append h, breaksFrom]

/-- The break behind a line is the first one. -/
theorem breaksFrom_line {line : List Char} (h : '\n' ∉ line) (base : Nat) (rest : List Char) :
    breaksFrom base (line ++ '\n' :: rest) =
      (base + Text.byteCount line + 1) :: breaksFrom (base + Text.byteCount line + 1) rest := by
  rw [breaksFrom_append h, breaksFrom, if_pos rfl, Text.utf8Size_newline]

/-- Where a line ends, in a text that begins at `base`. -/
def lineEndFrom (base : Nat) (cs : List Char) (line : Nat) : Nat :=
  match (breaksFrom base cs)[line]? with
  | some next => next - 1
  | none => base + Text.byteCount cs

theorem lineEndFrom_zero {line : List Char} (h : '\n' ∉ line) (base : Nat) (rest : List Char) :
    lineEndFrom base (line ++ '\n' :: rest) 0 = base + Text.byteCount line := by
  rw [lineEndFrom, breaksFrom_line h]
  rfl

theorem lineEndFrom_succ {line : List Char} (h : '\n' ∉ line) (base : Nat) (rest : List Char)
    (i : Nat) :
    lineEndFrom base (line ++ '\n' :: rest) (i + 1) =
      lineEndFrom (base + Text.byteCount line + 1) rest i := by
  have hend : base + Text.byteCount (line ++ '\n' :: rest) =
      base + Text.byteCount line + 1 + Text.byteCount rest := by
    rw [Text.byteCount_append, Text.byteCount_cons, Text.utf8Size_newline]
    omega
  rw [lineEndFrom, breaksFrom_line h, List.getElem?_cons_succ, hend]
  rfl

/-- **The lines of a text are its pieces between newlines**, and they stand where the breaks say. -/
theorem isLine_of_getElem?_splitOn (base : Nat) (cs : List Char) {i : Nat} {piece : List Char}
    (h : (cs.splitOn '\n')[i]? = some piece) :
    ∃ front back, Text.IsLine cs front piece back ∧
      (base :: breaksFrom base cs)[i]? = some (base + Text.byteCount front) ∧
      lineEndFrom base cs i = base + Text.byteCount (front ++ piece) := by
  induction cs using Text.line_induction generalizing base i with
  | last line hline =>
    rw [List.splitOn_eq_singleton hline] at h
    cases i with
    | succ i => simp at h
    | zero =>
      cases h
      refine ⟨[], [], ⟨by simp, hline, .inl rfl, .inl rfl⟩, rfl, ?_⟩
      rw [lineEndFrom, breaksFrom_of_not_mem hline]
      rfl
  | cons line rest hline ih =>
    rw [List.splitOn_append_cons_self_of_not_mem hline] at h
    cases i with
    | zero =>
      cases h
      exact ⟨[], '\n' :: rest, ⟨by simp, hline, .inl rfl, .inr ⟨rest, rfl⟩⟩, rfl,
        lineEndFrom_zero hline base rest⟩
    | succ i =>
      obtain ⟨front, back, hcut, hstart, hend⟩ := ih (base + Text.byteCount line + 1) h
      have hfront : Text.byteCount (line ++ '\n' :: front) =
          Text.byteCount line + 1 + Text.byteCount front := by
        rw [Text.byteCount_append, Text.byteCount_cons, Text.utf8Size_newline]
        omega
      refine ⟨line ++ '\n' :: front, back,
        ⟨by simp [hcut.eq_append], hcut.newline_not_mem, .inr ?_, hcut.back_begins⟩, ?_, ?_⟩
      · rcases hcut.front_ends with rfl | hfront_ends
        · exact List.suffix_append line ['\n']
        · exact hfront_ends.trans ((List.suffix_cons _ _).trans (List.suffix_append _ _))
      · rw [breaksFrom_line hline, List.getElem?_cons_succ, hstart, hfront]
        simp only [Nat.add_assoc]
      · rw [lineEndFrom_succ hline, hend, List.append_assoc, List.cons_append,
          Text.byteCount_append line, Text.byteCount_cons, Text.utf8Size_newline]
        omega

/-- There are as many pieces as lines. -/
theorem length_splitOn (base : Nat) (cs : List Char) :
    (cs.splitOn '\n').length = (breaksFrom base cs).length + 1 := by
  induction cs using Text.line_induction generalizing base with
  | last line hline =>
    rw [List.splitOn_eq_singleton hline, breaksFrom_of_not_mem hline]
    rfl
  | cons line rest hline ih =>
    rw [List.splitOn_append_cons_self_of_not_mem hline, breaksFrom_line hline, List.length_cons,
      ih, List.length_cons]

/-- The pieces of a text are its lines, from the first to the last. -/
theorem length_splitOn_ofText (text : String) :
    (text.toList.splitOn '\n').length = (ofText text).lineCount :=
  length_splitOn 0 text.toList

/-- **What stands on a line**, and where. -/
theorem isLine_ofText {text : String} {i : Nat} {piece : List Char}
    (h : (text.toList.splitOn '\n')[i]? = some piece) :
    ∃ front back, Text.IsLine text.toList front piece back ∧
      (ofText text).lineStart? i = some (Text.byteCount front) ∧
      (ofText text).lineEnd i = Text.byteCount (front ++ piece) := by
  obtain ⟨front, back, hcut, hstart, hend⟩ := isLine_of_getElem?_splitOn 0 text.toList h
  rw [lineEndFrom, Nat.zero_add, Nat.zero_add] at hend
  rw [Nat.zero_add] at hstart
  exact ⟨front, back, hcut, hstart, hend⟩

end LineIndex

end UsageReport
