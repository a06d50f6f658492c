/-
# Starting at a boundary

A text cannot be read from any point on.  Behind the beginning of a token other tokens are found,
and behind the beginning of some plain text a part of it is missing.  From a boundary between two
runs a text can be read, although runs are joined from pieces and the boundary is known only when
that is done.  The step is the first run of a text: what follows it is classified as if nothing
stood before it (`classify_cons`).  By induction this holds behind any number of runs, which tile
the text in front of the boundary (`classify_append`).

Where a text stands decides on nothing but the offsets (`classify_shift`), because its lexemes do
not depend on it.

The main statement (`classify_restart`) is both.
-/
import UsageReport.Proofs.Lexer.Runs
import UsageReport.Proofs.Lexer.Tiling

namespace UsageReport

/-- The run moved towards the end of the document by `k` bytes. -/
def ClassifiedRun.shift (run : ClassifiedRun) (k : Nat) : ClassifiedRun :=
  ⟨run.range.shift k, run.kind⟩

namespace Lexer

variable {base : Nat} {cs : List Char} {run : ClassifiedRun} {front back more : List ClassifiedRun}

/-! ## 1. Behind a boundary -/

/-- **The first run of a text**, and the runs of what follows it. -/
theorem classify_cons (h : classify base cs = run :: more) :
    ∃ kind text rest, cs = text ++ rest ∧ run = runOf base kind text ∧
      more = classify (base + Text.byteCount text) rest := by
  rw [classify] at h
  cases hlexemes : joinText (cut cs) with
  | nil =>
    rw [hlexemes] at h
    cases h
  | cons a tail =>
    rw [hlexemes, place, List.cons.injEq] at h
    obtain ⟨rfl, rfl⟩ := h
    obtain ⟨rest, rfl, rfl, -, -⟩ := joinText_cut_cons hlexemes
    exact ⟨a.kind, a.text, rest, rfl, rfl, rfl⟩

/-- **Behind any number of runs** a text is classified as if nothing stood before it. -/
theorem classify_append (h : classify base cs = front ++ back) :
    ∃ text rest, cs = text ++ rest ∧ Tiles base (base + Text.byteCount text) front ∧
      back = classify (base + Text.byteCount text) rest := by
  induction front generalizing base cs with
  | nil => exact ⟨[], cs, rfl, rfl, h.symm⟩
  | cons run front ih =>
    have htiles := tiles_classify base cs
    rw [h] at htiles
    obtain ⟨-, hlt, -⟩ := htiles
    obtain ⟨kind, first, others, rfl, rfl, hmore⟩ := classify_cons h
    obtain ⟨text, rest, rfl, hfront, hback⟩ := ih hmore.symm
    rw [Nat.add_assoc, ← Text.byteCount_append] at hfront hback
    exact ⟨first ++ text, rest, (List.append_assoc _ _ _).symm, ⟨rfl, hlt, hfront⟩, hback⟩

/-! ## 2. At another place -/

theorem place_shift (base k : Nat) (lexemes : List Lexeme) :
    place (base + k) lexemes = (place base lexemes).map (·.shift k) := by
  induction lexemes generalizing base with
  | nil => rfl
  | cons a rest ih =>
    have hnext : base + k + Text.byteCount a.text = base + Text.byteCount a.text + k := by omega
    rw [place, place, List.map_cons, ← ih, ClassifiedRun.shift, TextRange.shift]
    simp only [hnext]

/-- **A text at another place** has the same runs, moved by the distance. -/
theorem classify_shift (base k : Nat) (cs : List Char) :
    classify (base + k) cs = (classify base cs).map (·.shift k) := place_shift base k _

/-! ## 3. The main statement -/

/-- **The lexer can start at every boundary.**  Where one run of a text stops and the next one
starts there is a character boundary, and the rest of the text from there, at its place in the
document, has exactly the runs behind the boundary.  And a text that stands `k` bytes further on has
the same runs, `k` bytes further on. -/
theorem classify_restart (base : Nat) (cs : List Char) :
    (∀ front before after back, classify base cs = front ++ before :: after :: back →
      ∃ p rest, before.range.stop = base + p ∧ after.range.start = base + p ∧
        Text.dropBytes? p cs = some rest ∧ classify (base + p) rest = after :: back) ∧
    ∀ k, classify (base + k) cs = (classify base cs).map (·.shift k) := by
  refine ⟨?_, fun k => classify_shift base k cs⟩
  intro front before after back h
  have hsplit : classify base cs = (front ++ [before]) ++ after :: back := by
    rw [h, List.append_assoc, List.singleton_append]
  obtain ⟨text, rest, rfl, hfront, hback⟩ := classify_append hsplit
  have hbehind := tiles_classify (base + Text.byteCount text) rest
  rw [← hback] at hbehind
  refine ⟨Text.byteCount text, rest, ?_, ?_, ?_, hback.symm⟩
  · exact hfront.stop_of_getLast? List.getLast?_concat
  · exact hbehind.start_of_head? rfl
  · exact Text.dropBytes?_eq_some_iff.mpr ⟨text, rfl, rfl⟩

/-- Two characters without a token make one run.  Behind it `b` is classified by itself, at its
place in the document. -/
theorem classify_restart_sample :
    let cs := ['a', '$', '$', 'b']
    let runs := [runOf 7 .identifier ['a'], runOf 8 .text ['$', '$'], runOf 10 .identifier ['b']]
    classify 7 cs = runs ∧ classify 10 ['b'] = [runOf 10 .identifier ['b']] ∧
      classify 12 cs = runs.map (·.shift 5) := by
  intro cs runs
  have hruns : classify 7 cs = runs := by
    have h0 : head ['a', '$', '$', 'b'] = (.identifier, 1) := by decide +kernel
    have h1 : head ['$', '$', 'b'] = (.text, 1) := by decide +kernel
    have h2 : head ['$', 'b'] = (.text, 1) := by decide +kernel
    have h3 : head ['b'] = (.identifier, 1) := by decide +kernel
    have hlexemes : joinText (cut cs) =
        [⟨.identifier, ['a']⟩, ⟨.text, ['$', '$']⟩, ⟨.identifier, ['b']⟩] := by
      simp [cs, cut, joinText, h0, h1, h2, h3]
    rw [classify, hlexemes]
    rfl
  obtain ⟨hrestart, hshift⟩ := classify_restart 7 cs
  obtain ⟨p, rest, hstop, -, hrest, hbehind⟩ := hrestart [_] _ _ [] hruns
  obtain rfl : p = 3 := by
    have hend : 10 = 7 + p := hstop
    omega
  have hdrop : Text.dropBytes? 3 cs = some ['b'] := by decide
  obtain rfl : ['b'] = rest := Option.some_inj.mp (hdrop.symm.trans hrest)
  exact ⟨hruns, hbehind, (hshift 5).trans (congrArg _ hruns)⟩

end Lexer
end UsageReport
