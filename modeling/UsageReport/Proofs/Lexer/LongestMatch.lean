/-
# The longest match

What stands at the beginning of a run is decided there and then.  The lexemes of a text, with plain
text joined, are the first one and the lexemes of what follows it (`joinText_cut_cons`), so behind
any number of them the rest of the text is cut as if nothing stood before it
(`joinText_cut_append`).  It remains to say what a text begins with (`head_spec`): the longest
beginning that the grammar matches, of the kind that the grammar gives it, or plain text if no
beginning is matched at all.

The main statement (`classify_longestMatch`) says this of every run of a text.
-/
import Mathlib.Tactic.ByContra
import UsageReport.Proofs.Lexer.Runs
import UsageReport.Proofs.Lexer.TokenKind

namespace UsageReport
namespace Lexer

/-! ## 1. What a text begins with -/

/-- Some rule of the grammar matches the text. -/
def IsToken (w : List Char) : Prop := ∃ rule ∈ grammar, rule.pattern.Matches w

/-- The longest beginning of a text that some rule of the grammar matches. -/
structure IsLongestToken (token cs : List Char) : Prop where
  begins : token <+: cs
  isToken : IsToken token
  longest : ∀ other, other <+: cs → IsToken other → other.length ≤ token.length

theorem kind?_grammar_eq_none_iff {w : List Char} : kind? grammar w = none ↔ ¬ IsToken w := by
  rw [kind?_eq_none_iff, IsToken]
  simp only [not_exists, not_and]

/-- No rule is one for plain text. -/
theorem kind?_ne_text (w : List Char) : kind? grammar w ≠ some .text := by
  intro h
  have hkinds : ∀ rule ∈ grammar, rule.kind ≠ .text := by decide +kernel
  obtain ⟨rule, hrule, hkind, -⟩ := exists_rule_of_kind? h
  exact hkinds rule hrule hkind

/-- **What a text begins with**: its longest token with the kind of the grammar, or plain text if
it does not begin with a token. -/
theorem head_spec (cs : List Char) :
    ((head cs).1 ≠ .text → IsLongestToken (cs.take (head cs).2) cs ∧
      kind? grammar (cs.take (head cs).2) = some (head cs).1) ∧
    ((head cs).1 = .text → ∀ token, token <+: cs → ¬ IsToken token) := by
  have hspec := longest?_spec grammar cs
  cases hlongest : longest? grammar cs with
  | some found =>
    have hhead : head cs = found := by rw [head, hlongest]
    obtain ⟨kind, n⟩ := found
    rw [hlongest] at hspec
    obtain ⟨hle, hkind, hlonger⟩ := hspec
    rw [hhead]
    refine ⟨fun _ => ⟨⟨List.take_prefix n cs, ?_, ?_⟩, hkind⟩, ?_⟩
    · by_contra hno
      rw [kind?_grammar_eq_none_iff.mpr hno] at hkind
      cases hkind
    · intro other hother htoken
      rw [List.length_take_of_le hle]
      by_contra hlt
      exact kind?_grammar_eq_none_iff.mp (hlonger other hother (Nat.lt_of_not_le hlt)) htoken
    · rintro rfl
      exact absurd hkind (kind?_ne_text _)
  | none =>
    have hhead : (head cs).1 = .text := by rw [head, hlongest]
    rw [hlongest] at hspec
    refine ⟨fun hne => absurd hhead hne, fun _ token htoken => ?_⟩
    cases token with
    | nil => exact fun ⟨rule, hrule, hmatch⟩ => not_matches_nil hrule hmatch
    | cons c w =>
      exact kind?_grammar_eq_none_iff.mp (hspec (c :: w) htoken (Nat.succ_pos _))

/-! ## 2. The main statement -/

/-- **Every run is the longest match.**

A run that is not plain text stands over the longest beginning of the remaining text that some rule
of the grammar matches.  Its kind is that of each rule that matches, unless the text is a keyword;
so a word is a keyword exactly if it is listed, and with an at sign before it, or letters and
digits attached that do not make it another keyword, it is an identifier.  Where a run is plain
text, the remaining text does not begin with anything that a rule matches. -/
theorem classify_longestMatch (base : Nat) (cs : List Char) {run : ClassifiedRun}
    (h : run ∈ classify base cs) :
    ∃ front text back, cs = front ++ (text ++ back) ∧
      run = runOf (base + Text.byteCount front) run.kind text ∧
      (run.kind ≠ .text → IsLongestToken text (text ++ back)) ∧
      (run.kind = .text → ∀ token, token <+: text ++ back → ¬ IsToken token) ∧
      (∀ rule ∈ grammar, rule.pattern.Matches text →
        run.kind = if String.ofList text ∈ keywords then .keyword else rule.kind) ∧
      (identifier.Matches text →
        run.kind = if String.ofList text ∈ keywords then .keyword else .identifier) ∧
      (∀ word ∈ keywords, text = '@' :: word.toList → run.kind = .identifier) ∧
      ∀ word ∈ keywords, ∀ more, (∀ c ∈ more, letterOrDigit.contains c = true) →
        text = word.toList ++ more → String.ofList text ∉ keywords → run.kind = .identifier := by
  obtain ⟨front, a, back, hlexemes, rfl⟩ := exists_lexeme_of_mem_place h
  obtain ⟨rest, rfl, hrest⟩ := joinText_cut_append hlexemes
  obtain ⟨behind, rfl, -, hhead, htext⟩ := joinText_cut_cons hrest.symm
  obtain ⟨hlongest, hplain⟩ := head_spec (a.text ++ behind)
  rw [← hhead] at hlongest hplain
  have htoken : a.kind ≠ .text → IsLongestToken a.text (a.text ++ behind) := fun hne => by
    obtain ⟨hl, -⟩ := hlongest hne
    rwa [← htext hne] at hl
  have hrule : ∀ rule ∈ grammar, rule.pattern.Matches a.text →
      a.kind = if String.ofList a.text ∈ keywords then .keyword else rule.kind := by
    intro rule hrule hmatch
    have hne : a.kind ≠ .text := fun hk =>
      hplain hk a.text (List.prefix_append _ _) ⟨rule, hrule, hmatch⟩
    obtain ⟨-, hkind⟩ := hlongest hne
    rw [← htext hne, kind?_of_matches hrule hmatch, Option.some_inj] at hkind
    exact hkind.symm
  have hword (hmatch : identifier.Matches a.text) := hrule _ identifier_mem_grammar hmatch
  refine ⟨_, a.text, behind, rfl, rfl, htoken, hplain, hrule, hword, ?_, ?_⟩
  · intro word hmem htext
    obtain ⟨-, hmatch, hno⟩ := matches_identifier_of_keyword hmem
    rw [← htext] at hmatch hno
    exact (hword hmatch).trans (if_neg hno)
  · intro word hmem more hmore htext hno
    obtain ⟨hmatch, -, -⟩ := matches_identifier_of_keyword hmem
    have happend := matches_identifier_append hmatch hmore
    rw [← htext] at happend
    exact (hword happend).trans (if_neg hno)

/-- An exponent without digits does not belong to the number: the first run of `1e+;` is over the
`1`, and it is the longest token there. -/
theorem classify_longestMatch_sample :
    runOf 7 .numericLiteral ['1'] ∈ classify 7 ['1', 'e', '+', ';'] ∧
      IsLongestToken ['1'] ['1', 'e', '+', ';'] := by
  have hfirst : (classify 7 ['1', 'e', '+', ';']).head? = some (runOf 7 .numericLiteral ['1']) :=
    (head?_classify 7 (by decide) (by decide +kernel)).trans (by decide +kernel)
  have hmem := List.mem_of_mem_head? hfirst
  obtain ⟨front, text, back, hcs, hrun, htoken, -⟩ := classify_longestMatch 7 _ hmem
  have hsize : '1'.utf8Size = 1 := by decide
  have hstart : 7 = 7 + Text.byteCount front := congrArg (·.range.start) hrun
  have hstop : 7 + ('1'.utf8Size + 0) = 7 + Text.byteCount front + Text.byteCount text :=
    congrArg (·.range.stop) hrun
  have hfront : front = [] := Text.byteCount_eq_zero_iff.mp (by omega)
  subst hfront
  cases text with
  | nil =>
    rw [Text.byteCount_nil] at hstop
    omega
  | cons c more =>
    obtain ⟨rfl, hmore⟩ := List.cons.inj hcs
    rw [Text.byteCount_cons] at hstop
    have hnil : more = [] := Text.byteCount_eq_zero_iff.mp (by omega)
    subst hnil
    refine ⟨hmem, ?_⟩
    rw [hcs]
    exact htoken (by decide)

end Lexer
end UsageReport
