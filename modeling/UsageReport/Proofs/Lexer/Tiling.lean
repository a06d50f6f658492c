/-
# Runs without gaps

What a lexer does to a text, whatever its tokens are, is to cut it: none of the pieces is empty,
and side by side they are the text (`Cuts`).  The grammar decides only where the cuts are.  Joining
neighbours of plain text gives a cutting again, in which no two pieces of plain text are
neighbours.

A cutting placed at an offset tiles the stretch of the document under the text (`Tiles`): the first
run starts where the stretch does, each run starts where the one before it stops, and the last one
stops where the stretch does.  Every run begins and ends between two characters, because every
piece of the cutting is made of whole characters (`Cuts.slice?_of_mem_place`).
-/
import Mathlib.Data.List.Chain
import UsageReport.Lexer.Lexeme

namespace UsageReport
namespace Lexer

/-! ## 1. Cuttings -/

/-- The lexemes are a cutting of the text. -/
structure Cuts (lexemes : List Lexeme) (cs : List Char) : Prop where
  text_ne_nil : ∀ a ∈ lexemes, a.text ≠ []
  flatMap_text : lexemes.flatMap Lexeme.text = cs

theorem cuts_nil : Cuts [] [] := ⟨by simp, rfl⟩

theorem Cuts.cons {a : Lexeme} {rest : List Lexeme} {cs : List Char} (ha : a.text ≠ [])
    (h : Cuts rest cs) : Cuts (a :: rest) (a.text ++ cs) where
  text_ne_nil := by
    intro b hb
    rcases List.mem_cons.mp hb with rfl | hb
    · exact ha
    · exact h.text_ne_nil b hb
  flatMap_text := by rw [List.flatMap_cons, h.flatMap_text]

/-- A cutting that begins with a lexeme cuts the rest behind it. -/
theorem Cuts.of_cons {a : Lexeme} {rest : List Lexeme} {cs : List Char}
    (h : Cuts (a :: rest) cs) :
    a.text ≠ [] ∧ ∃ more, cs = a.text ++ more ∧ Cuts rest more := by
  refine ⟨h.text_ne_nil a List.mem_cons_self, rest.flatMap Lexeme.text, ?_, ?_, rfl⟩
  · rw [← h.flatMap_text, List.flatMap_cons]
  · exact fun b hb => h.text_ne_nil b (List.mem_cons_of_mem a hb)

/-- **The lexer cuts every text**, however little of it the grammar knows. -/
theorem cuts_cut (cs : List Char) : Cuts (cut cs) cs := by
  induction cs using cut.induct with
  | case1 =>
    rw [cut]
    exact cuts_nil
  | case2 c cs ih =>
    rw [cut]
    have hne : (c :: cs).take (head (c :: cs)).2 ≠ [] := by
      have := head_pos (c :: cs)
      rw [ne_eq, List.take_eq_nil_iff]
      rintro (h | h)
      · omega
      · cases h
    have hcuts := Cuts.cons (a := ⟨(head (c :: cs)).1, (c :: cs).take (head (c :: cs)).2⟩) hne ih
    rwa [List.take_append_drop] at hcuts

/-! ## 2. Joining plain text -/

/-- Not both are plain text. -/
def Distinct (a b : TextKind) : Prop := ¬ (a = .text ∧ b = .text)

/-- Joining changes neither the text nor that no lexeme is empty. -/
theorem Cuts.joinText {lexemes : List Lexeme} {cs : List Char} (h : Cuts lexemes cs) :
    Cuts (joinText lexemes) cs := by
  induction lexemes generalizing cs with
  | nil => exact h
  | cons a rest ih =>
    obtain ⟨ha, more, rfl, hrest⟩ := h.of_cons
    have hjoined := ih hrest
    rw [Lexer.joinText]
    split
    · rename_i hnil
      rw [hnil] at hjoined
      exact hjoined.cons ha
    · rename_i b tail hcons
      rw [hcons] at hjoined
      split
      · obtain ⟨hb, last, rfl, htail⟩ := hjoined.of_cons
        rw [← List.append_assoc]
        exact htail.cons (a := ⟨.text, a.text ++ b.text⟩) (by simp [ha])
      · exact hjoined.cons ha

/-- **No two neighbours are plain text** when neighbours have been joined. -/
theorem isChain_joinText (lexemes : List Lexeme) :
    ((joinText lexemes).map Lexeme.kind).IsChain Distinct := by
  induction lexemes with
  | nil => exact List.isChain_nil
  | cons a rest ih =>
    rw [joinText]
    split
    · exact List.isChain_singleton _
    · rename_i b tail hcons
      rw [hcons] at ih
      split
      · -- What was a neighbour of `b` is now one of the joined lexeme, which is of its kind.
        rename_i hboth
        rw [List.map_cons, hboth.2] at ih
        exact ih
      · rename_i hnot
        exact List.isChain_cons_cons.mpr ⟨hnot, ih⟩

/-! ## 3. Tilings -/

/-- The runs tile the stretch from `start` to `stop`: they are not empty, and each one starts
where the one before it stops. -/
def Tiles (start stop : Nat) : List ClassifiedRun → Prop
  | [] => start = stop
  | run :: rest =>
    run.range.start = start ∧ start < run.range.stop ∧ Tiles run.range.stop stop rest

/-- **A cutting placed at an offset tiles what is under the text.** -/
theorem Cuts.tiles_place {lexemes : List Lexeme} {cs : List Char} (h : Cuts lexemes cs)
    (base : Nat) : Tiles base (base + Text.byteCount cs) (place base lexemes) := by
  induction lexemes generalizing base cs with
  | nil =>
    cases h.flatMap_text
    rfl
  | cons a rest ih =>
    obtain ⟨ha, more, rfl, hrest⟩ := h.of_cons
    rw [place, Text.byteCount_append, ← Nat.add_assoc]
    refine ⟨rfl, ?_, ih hrest _⟩
    have : Text.byteCount a.text ≠ 0 := mt Text.byteCount_eq_zero_iff.mp ha
    dsimp only
    omega

theorem map_kind_place (base : Nat) (lexemes : List Lexeme) :
    (place base lexemes).map ClassifiedRun.kind = lexemes.map Lexeme.kind := by
  induction lexemes generalizing base with
  | nil => rfl
  | cons a rest ih => rw [place, List.map_cons, ih, List.map_cons]

/-- **Every run is made of whole characters**: in a document that has `front` before the text and
`back` behind it, each run of the text has a slice. -/
theorem Cuts.slice?_of_mem_place {lexemes : List Lexeme} {cs : List Char}
    (h : Cuts lexemes cs) (front back : List Char) {run : ClassifiedRun}
    (hrun : run ∈ place (Text.byteCount front) lexemes) :
    ∃ text, Text.slice? run.range.start run.range.stop (front ++ cs ++ back) = some text := by
  induction lexemes generalizing front cs with
  | nil => simp [place] at hrun
  | cons a rest ih =>
    obtain ⟨-, more, rfl, hrest⟩ := h.of_cons
    rw [place] at hrun
    rcases List.mem_cons.mp hrun with rfl | hrun
    · exact ⟨a.text, Text.slice?_eq_some_iff.mpr ⟨front, more ++ back, by simp, rfl, by simp⟩⟩
    · rw [← Text.byteCount_append] at hrun
      have hslice := ih hrest (front ++ a.text) hrun
      rwa [List.append_assoc front] at hslice

/-! ## 4. The runs of a text -/

/-- The runs of a text tile it. -/
theorem tiles_classify (base : Nat) (cs : List Char) :
    Tiles base (base + Text.byteCount cs) (classify base cs) :=
  (cuts_cut cs).joinText.tiles_place base

/-- No two neighbours among the runs of a text are plain text. -/
theorem isChain_classify (base : Nat) (cs : List Char) :
    ((classify base cs).map ClassifiedRun.kind).IsChain Distinct := by
  rw [classify, map_kind_place]
  exact isChain_joinText (cut cs)

/-- No run of a text cuts a character in two. -/
theorem slice?_of_mem_classify (front cs back : List Char) {run : ClassifiedRun}
    (hrun : run ∈ classify (Text.byteCount front) cs) :
    ∃ text, Text.slice? run.range.start run.range.stop (front ++ cs ++ back) = some text :=
  (cuts_cut cs).joinText.slice?_of_mem_place front back hrun

/-! ## 5. The ends of a tiling -/

variable {start stop : Nat} {runs : List ClassifiedRun}

theorem Tiles.start_le_stop (h : Tiles start stop runs) : start ≤ stop := by
  induction runs generalizing start with
  | nil => exact Nat.le_of_eq h
  | cons run rest ih =>
    obtain ⟨-, hlt, hrest⟩ := h
    have := ih hrest
    omega

/-- Only an empty stretch is tiled by no runs. -/
theorem Tiles.eq_nil_iff (h : Tiles start stop runs) : runs = [] ↔ start = stop := by
  cases runs with
  | nil => exact iff_of_true rfl h
  | cons run rest =>
    obtain ⟨-, hlt, hrest⟩ := h
    have := hrest.start_le_stop
    exact iff_of_false (List.cons_ne_nil _ _) (by omega)

/-- **An offset of the stretch is under some run**, and under runs there are no others. -/
theorem Tiles.exists_run_iff (h : Tiles start stop runs) (offset : Nat) :
    (∃ run ∈ runs, run.range.start ≤ offset ∧ offset < run.range.stop) ↔
      start ≤ offset ∧ offset < stop := by
  induction runs generalizing start with
  | nil =>
    cases h
    simp
  | cons run rest ih =>
    obtain ⟨hstart, hlt, hrest⟩ := h
    have hle := hrest.start_le_stop
    rw [List.exists_mem_cons_iff, ih hrest, hstart]
    omega

/-- The first run starts where the stretch does. -/
theorem Tiles.start_of_head? (h : Tiles start stop runs) {first : ClassifiedRun}
    (hfirst : runs.head? = some first) : first.range.start = start := by
  cases runs with
  | nil => cases hfirst
  | cons run rest =>
    cases hfirst
    exact h.1

/-- The last run stops where the stretch does. -/
theorem Tiles.stop_of_getLast? (h : Tiles start stop runs) {last : ClassifiedRun}
    (hlast : runs.getLast? = some last) : last.range.stop = stop := by
  induction runs generalizing start with
  | nil => cases hlast
  | cons run rest ih =>
    obtain ⟨-, -, hrest⟩ := h
    cases rest with
    | nil =>
      cases hlast
      exact hrest
    | cons next more => exact ih hrest (by rwa [List.getLast?_cons_cons] at hlast)

end Lexer
end UsageReport
