/-
# Byte positions in a text

Every offset of this library counts UTF-8 bytes, while a text is a list of characters.  A
character takes one to four bytes, so an offset may fall inside a character.  This file
counts bytes (`byteCount`) and cuts a text at an offset (`dropBytes?`, `takeBytes?`), and the
cuts fail exactly where no character boundary is: past the end, or inside a character.

No second text type is needed for this.  The bytes themselves are never looked at; their
number is a measure on characters, additive over `++`.
-/

namespace UsageReport
namespace Text

/-! ## 1. Counting -/

/-- The number of UTF-8 bytes of a run of characters. -/
def byteCount : List Char → Nat
  | [] => 0
  | c :: cs => c.utf8Size + byteCount cs

@[simp] theorem byteCount_nil : byteCount [] = 0 := rfl

@[simp] theorem byteCount_cons (c : Char) (cs : List Char) :
    byteCount (c :: cs) = c.utf8Size + byteCount cs := rfl

@[simp] theorem byteCount_append (xs ys : List Char) :
    byteCount (xs ++ ys) = byteCount xs + byteCount ys := by
  induction xs with
  | nil => simp
  | cons x xs ih => simp [ih, Nat.add_assoc]

/-- Only the empty run has no bytes. -/
theorem byteCount_eq_zero_iff {cs : List Char} : byteCount cs = 0 ↔ cs = [] := by
  cases cs with
  | nil => simp
  | cons c cs => simpa using fun h => absurd h (by have := c.utf8Size_pos; omega)

/-! ## 2. Cutting -/

/-- What follows the first `n` bytes; `none` if `n` is no character boundary of the text. -/
def dropBytes? : Nat → List Char → Option (List Char)
  | 0, cs => some cs
  | _ + 1, [] => none
  | n + 1, c :: cs =>
    if c.utf8Size ≤ n + 1 then dropBytes? (n + 1 - c.utf8Size) cs else none

/-- The first `n` bytes; `none` if `n` is no character boundary of the text. -/
def takeBytes? : Nat → List Char → Option (List Char)
  | 0, _ => some []
  | _ + 1, [] => none
  | n + 1, c :: cs =>
    if c.utf8Size ≤ n + 1 then (takeBytes? (n + 1 - c.utf8Size) cs).map (c :: ·) else none

/-- The bytes from `start` up to `stop`; `none` if either end is no character boundary. -/
def slice? (start stop : Nat) (cs : List Char) : Option (List Char) :=
  if start ≤ stop then (dropBytes? start cs).bind (takeBytes? (stop - start)) else none

/-- Dropping succeeds exactly at a split of the text into two whole runs. -/
theorem dropBytes?_eq_some_iff {n : Nat} {cs rest : List Char} :
    dropBytes? n cs = some rest ↔ ∃ front, cs = front ++ rest ∧ byteCount front = n := by
  induction cs generalizing n with
  | nil =>
    cases n with
    | zero =>
      simp only [dropBytes?, Option.some.injEq]
      constructor
      · rintro rfl; exact ⟨[], rfl, rfl⟩
      · rintro ⟨front, h, -⟩
        exact (List.append_eq_nil_iff.mp h.symm).2.symm
    | succ n =>
      simp only [dropBytes?, reduceCtorEq, false_iff, not_exists, not_and]
      intro front h
      simp only [List.nil_eq, List.append_eq_nil_iff] at h
      simp [h.1]
  | cons c cs ih =>
    have hc := c.utf8Size_pos
    cases n with
    | zero =>
      simp only [dropBytes?, Option.some.injEq]
      constructor
      · rintro rfl; exact ⟨[], rfl, rfl⟩
      · rintro ⟨front, h, hn⟩
        rw [byteCount_eq_zero_iff] at hn
        simpa [hn] using h
    | succ n =>
      simp only [dropBytes?]
      split
      · rename_i hle
        rw [ih]
        constructor
        · rintro ⟨front, rfl, hn⟩
          exact ⟨c :: front, rfl, by simp [hn]; omega⟩
        · rintro ⟨front, h, hn⟩
          cases front with
          | nil => simp at hn
          | cons d front =>
            simp only [List.cons_append, List.cons.injEq] at h
            obtain ⟨rfl, rfl⟩ := h
            exact ⟨front, rfl, by simp at hn; omega⟩
      · rename_i hlt
        simp only [reduceCtorEq, false_iff, not_exists, not_and]
        intro front h
        cases front with
        | nil => simp
        | cons d front =>
          simp only [List.cons_append, List.cons.injEq] at h
          simp [← h.1]; omega

/-- Taking succeeds exactly at a split of the text into two whole runs. -/
theorem takeBytes?_eq_some_iff {n : Nat} {cs front : List Char} :
    takeBytes? n cs = some front ↔ ∃ rest, cs = front ++ rest ∧ byteCount front = n := by
  induction cs generalizing n front with
  | nil =>
    cases n with
    | zero =>
      simp only [takeBytes?, Option.some.injEq]
      constructor
      · rintro rfl; exact ⟨[], rfl, rfl⟩
      · rintro ⟨rest, h, hn⟩
        exact (byteCount_eq_zero_iff.mp hn).symm
    | succ n =>
      simp only [takeBytes?, reduceCtorEq, false_iff, not_exists, not_and]
      intro rest h
      simp only [List.nil_eq, List.append_eq_nil_iff] at h
      simp [h.1]
  | cons c cs ih =>
    have hc := c.utf8Size_pos
    cases n with
    | zero =>
      simp only [takeBytes?, Option.some.injEq]
      constructor
      · rintro rfl; exact ⟨c :: cs, rfl, rfl⟩
      · rintro ⟨rest, h, hn⟩
        exact (byteCount_eq_zero_iff.mp hn).symm
    | succ n =>
      simp only [takeBytes?]
      split
      · rename_i hle
        simp only [Option.map_eq_some_iff, ih]
        constructor
        · rintro ⟨tail, ⟨rest, rfl, hn⟩, rfl⟩
          exact ⟨rest, rfl, by simp [hn]; omega⟩
        · rintro ⟨rest, h, hn⟩
          cases front with
          | nil => simp at hn
          | cons d front =>
            simp only [List.cons_append, List.cons.injEq] at h
            obtain ⟨rfl, rfl⟩ := h
            exact ⟨front, ⟨rest, rfl, by simp at hn; omega⟩, rfl⟩
      · rename_i hlt
        simp only [reduceCtorEq, false_iff, not_exists, not_and]
        intro rest h
        cases front with
        | nil => simp
        | cons d front =>
          simp only [List.cons_append, List.cons.injEq] at h
          simp [← h.1]; omega

/-- **What a slice is.**  It exists exactly when the text splits into three whole runs, the
first ending at `start` and the second at `stop`, and then it is the second. -/
theorem slice?_eq_some_iff {start stop : Nat} {cs mid : List Char} :
    slice? start stop cs = some mid ↔
      ∃ front rest, cs = front ++ mid ++ rest ∧ byteCount front = start ∧
        byteCount (front ++ mid) = stop := by
  unfold slice?
  split
  · rename_i hle
    simp only [Option.bind_eq_some_iff, dropBytes?_eq_some_iff, takeBytes?_eq_some_iff]
    constructor
    · rintro ⟨_, ⟨front, rfl, hf⟩, rest, rfl, hm⟩
      exact ⟨front, rest, by simp, hf, by simp; omega⟩
    · rintro ⟨front, rest, rfl, hf, hm⟩
      exact ⟨mid ++ rest, ⟨front, by simp, hf⟩, rest, rfl, by simp at hm; omega⟩
  · rename_i hlt
    simp only [reduceCtorEq, false_iff, not_exists, not_and]
    intro front rest _ hf
    simp; omega

end Text
end UsageReport
