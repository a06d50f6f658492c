/-
# Runs of a text, one after the other

What stands at the beginning of a text is decided there and then, and what follows it is cut as if
nothing stood before it.  For the lexemes as they are cut this is how `cut` is defined.  It stays
so when neighbours of plain text are joined (`joinText_cut_cons`): a joined lexeme ends where the
last of its pieces does, and behind that piece the cutting went on by itself.

So behind any number of lexemes the rest of a text is cut by itself (`joinText_cut_append`), and
the first run of a text is over what the text begins with (`head?_classify`).
-/
import UsageReport.Lexer.Lexeme

namespace UsageReport
namespace Lexer

variable {cs : List Char} {base : Nat}

/-! ## 1. Lexemes with plain text joined -/

/-- **The first lexeme**, with plain text joined, and the lexemes of what follows it. -/
theorem joinText_cut_cons {a : Lexeme} {more : List Lexeme}
    (h : joinText (cut cs) = a :: more) :
    ∃ rest, cs = a.text ++ rest ∧ more = joinText (cut rest) ∧ a.kind = (head cs).1 ∧
      (a.kind ≠ .text → a.text = cs.take (head cs).2) := by
  induction cs using cut.induct generalizing a more with
  | case1 =>
    rw [cut, joinText] at h
    cases h
  | case2 c cs ih =>
    rw [cut, joinText] at h
    have hcs := List.take_append_drop (head (c :: cs)).2 (c :: cs)
    cases hjoined : joinText (cut ((c :: cs).drop (head (c :: cs)).2)) with
    | nil =>
      rw [hjoined] at h
      cases h
      exact ⟨_, hcs.symm, hjoined.symm, rfl, fun _ => rfl⟩
    | cons b tail =>
      rw [hjoined] at h
      dsimp only at h
      split at h
      · -- Two pieces of plain text: the second one ends where the joined lexeme does.
        rename_i hboth
        cases h
        obtain ⟨rest, hdrop, htail, -, -⟩ := ih hjoined
        refine ⟨rest, ?_, htail, hboth.1.symm, fun hne => absurd rfl hne⟩
        rw [List.append_assoc, ← hdrop, hcs]
      · cases h
        exact ⟨_, hcs.symm, hjoined.symm, rfl, fun _ => rfl⟩

/-- **Behind any number of lexemes** the rest is cut by itself. -/
theorem joinText_cut_append {front back : List Lexeme}
    (h : joinText (cut cs) = front ++ back) :
    ∃ rest, cs = front.flatMap Lexeme.text ++ rest ∧ back = joinText (cut rest) := by
  induction front generalizing cs with
  | nil => exact ⟨cs, rfl, h.symm⟩
  | cons a front ih =>
    obtain ⟨more, rfl, hmore, -, -⟩ := joinText_cut_cons h
    obtain ⟨rest, rfl, hback⟩ := ih hmore.symm
    exact ⟨rest, by rw [List.flatMap_cons, List.append_assoc], hback⟩

/-- Only the empty text has no lexemes. -/
theorem eq_nil_of_joinText_cut (h : joinText (cut cs) = []) : cs = [] := by
  cases cs with
  | nil => rfl
  | cons c cs =>
    rw [cut, joinText] at h
    split at h
    · cases h
    · split at h <;> cases h

/-! ## 2. Runs -/

/-- The run of a kind over a text that stands at the offset `base`. -/
def runOf (base : Nat) (kind : TextKind) (text : List Char) : ClassifiedRun :=
  ⟨⟨base, base + Text.byteCount text, by omega⟩, kind⟩

/-- A run that was placed is that of a lexeme, behind the lexemes before it. -/
theorem exists_lexeme_of_mem_place {lexemes : List Lexeme} {run : ClassifiedRun}
    (h : run ∈ place base lexemes) :
    ∃ front a back, lexemes = front ++ a :: back ∧
      run = runOf (base + Text.byteCount (front.flatMap Lexeme.text)) a.kind a.text := by
  induction lexemes generalizing base with
  | nil => cases h
  | cons a rest ih =>
    rw [place] at h
    rcases List.mem_cons.mp h with rfl | h
    · exact ⟨[], a, rest, rfl, rfl⟩
    · obtain ⟨front, b, back, rfl, hrun⟩ := ih h
      refine ⟨a :: front, b, back, rfl, ?_⟩
      rw [hrun, List.flatMap_cons, Text.byteCount_append, Nat.add_assoc]

/-- The first run of a text is over what the text begins with, unless that is plain text. -/
theorem head?_classify (base : Nat) {cs : List Char} (hne : cs ≠ [])
    (hkind : (head cs).1 ≠ .text) :
    (classify base cs).head? = some (runOf base (head cs).1 (cs.take (head cs).2)) := by
  rw [classify]
  cases hlexemes : joinText (cut cs) with
  | nil => exact absurd (eq_nil_of_joinText_cut hlexemes) hne
  | cons a more =>
    obtain ⟨-, -, -, hhead, htext⟩ := joinText_cut_cons hlexemes
    rw [← hhead] at hkind ⊢
    rw [place, List.head?_cons, ← htext hkind]
    rfl

end Lexer
end UsageReport
