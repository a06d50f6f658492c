/-
# The kind of a token

The grammar gives a text one kind, and the order of its rules matters only between keywords and
identifiers.  Any other two rules of different kinds have no text in common (`kind_of_matches`).
For most of them the first character tells (`family_eq_or_apart`).  Comments and operators both
begin with a slash; there the second character tells, since the slash as an operator is the whole
text and a comment is longer.

So the kind of a token is a function of its text: `keyword` if it is one of the keywords, and
otherwise the kind of any rule that matches (`kind?_of_matches`).
-/
import UsageReport.Proofs.Lexer.Pattern
import UsageReport.Proofs.Lexer.Reading

namespace UsageReport
namespace Lexer

variable {rules : List Rule} {a b : Rule} {c : Char} {w : List Char}

/-! ## 1. Rules that begin alike -/

/-- Kinds whose tokens can begin with one character are of one family. -/
def family : TextKind → TextKind
  | .keyword => .identifier
  | .comment => .operator
  | kind => kind

theorem family_eq_or_apart :
    ∀ a ∈ grammar, ∀ b ∈ grammar,
      family a.kind = family b.kind ∨ a.pattern.apart b.pattern = true := by
  decide +kernel

/-- No token is empty. -/
theorem not_matches_nil (ha : a ∈ grammar) : ¬ a.pattern.Matches [] := by
  have hnone : ∀ a ∈ grammar, a.pattern.acceptsEmpty = false := by decide +kernel
  rw [← Pattern.acceptsEmpty_iff, hnone a ha]
  exact Bool.false_ne_true

/-- What is left of a rule that matches is among what is left of the rules. -/
theorem exists_mem_advance (ha : a ∈ rules) (h : a.pattern.Matches (c :: w)) :
    ∃ rest ∈ advance c rules, rest.kind = a.kind ∧ rest.pattern.Matches w := by
  have hrest : (a.pattern.derivative c).Matches w := Pattern.matches_derivative_iff.mpr h
  have hleft : ¬ (a.pattern.derivative c).isNever = true := by
    intro hnever
    have hno := Pattern.not_accepts_of_isNever hnever w
    rw [Pattern.accepts_iff.mpr hrest] at hno
    exact Bool.false_ne_true hno.symm
  refine ⟨⟨a.kind, a.pattern.derivative c⟩, ?_, rfl, hrest⟩
  exact List.mem_filterMap.mpr ⟨a, ha, if_neg hleft⟩

/-- **Comments are no operators.** -/
theorem not_comment_and_operator (ha : a ∈ grammar) (hb : b ∈ grammar) (hak : a.kind = .comment)
    (hbk : b.kind = .operator) (hwa : a.pattern.Matches w) : ¬ b.pattern.Matches w := by
  intro hwb
  have hfirst : ∀ a ∈ grammar, a.kind = .comment →
      ∀ set ∈ a.pattern.firsts, set = .anyOf ['/'] := by decide +kernel
  have hsecond : ∀ rest ∈ advance '/' grammar,
      (rest.kind = .comment → rest.pattern.acceptsEmpty = false) ∧
        (rest.kind = .operator → rest.pattern = .empty) := by decide +kernel
  cases w with
  | nil => exact not_matches_nil ha hwa
  | cons c w =>
    obtain ⟨set, hset, hc⟩ := Pattern.exists_mem_firsts hwa
    rw [hfirst a ha hak set hset, CharSet.contains_anyOf_iff, List.mem_singleton] at hc
    subst hc
    obtain ⟨arest, harest, hakind, hwa⟩ := exists_mem_advance ha hwa
    obtain ⟨brest, hbrest, hbkind, hwb⟩ := exists_mem_advance hb hwb
    obtain ⟨hcomment, -⟩ := hsecond arest harest
    obtain ⟨-, hoperator⟩ := hsecond brest hbrest
    rw [hoperator (hbkind.trans hbk), Pattern.matches_empty_iff] at hwb
    rw [hwb, ← Pattern.acceptsEmpty_iff, hcomment (hakind.trans hak)] at hwa
    exact Bool.false_ne_true hwa

/-- **Only keywords and identifiers share texts.** -/
theorem kind_of_matches (ha : a ∈ grammar) (hb : b ∈ grammar) (hwa : a.pattern.Matches w)
    (hwb : b.pattern.Matches w) :
    a.kind = b.kind ∨ (a.kind = .keyword ∧ b.kind = .identifier) ∨
      (a.kind = .identifier ∧ b.kind = .keyword) := by
  have hfamily : family a.kind = family b.kind := by
    cases w with
    | nil => exact absurd hwa (not_matches_nil ha)
    | cons c w =>
      refine (family_eq_or_apart a ha b hb).resolve_right fun hapart => ?_
      exact Pattern.not_matches_of_apart hapart hwa hwb
  have hab (hak : a.kind = .comment) (hbk : b.kind = .operator) : False :=
    not_comment_and_operator ha hb hak hbk hwa hwb
  have hba (hbk : b.kind = .comment) (hak : a.kind = .operator) : False :=
    not_comment_and_operator hb ha hbk hak hwb hwa
  cases hak : a.kind <;> cases hbk : b.kind <;> simp_all [family]

/-! ## 2. Keywords -/

/-- The rules for keywords are one for each keyword. -/
theorem filter_keyword_grammar :
    grammar.filter (·.kind = .keyword) =
      keywords.map fun word => ⟨.keyword, .text word.toList⟩ := by
  decide +kernel

/-- The rules for keywords describe the keywords. -/
theorem matches_keyword_iff :
    (∃ a ∈ grammar, a.kind = .keyword ∧ a.pattern.Matches w) ↔ String.ofList w ∈ keywords := by
  constructor
  · rintro ⟨a, ha, hkind, hw⟩
    have hrule : a ∈ grammar.filter (·.kind = .keyword) :=
      List.mem_filter.mpr ⟨ha, decide_eq_true hkind⟩
    rw [filter_keyword_grammar] at hrule
    obtain ⟨word, hword, rfl⟩ := List.mem_map.mp hrule
    rwa [Pattern.matches_text_iff.mp hw, String.ofList_toList]
  · intro hw
    have hrule : ⟨.keyword, .text w⟩ ∈ grammar.filter (·.kind = .keyword) := by
      rw [filter_keyword_grammar]
      exact List.mem_map.mpr ⟨String.ofList w, hw, by rw [String.toList_ofList]⟩
    obtain ⟨ha, -⟩ := List.mem_filter.mp hrule
    exact ⟨_, ha, rfl, Pattern.matches_text_iff.mpr rfl⟩

/-- **A keyword is no identifier**, as its rules stand before the one for identifiers. -/
theorem kind?_ne_identifier (hw : String.ofList w ∈ keywords) :
    kind? grammar w ≠ some .identifier := by
  have hlast : grammar = grammar.dropLast ++ [⟨.identifier, identifier⟩] := by decide +kernel
  have hbefore : ∀ a ∈ grammar.dropLast, a.kind ≠ .identifier := by decide +kernel
  obtain ⟨a, ha, hkind, hmatch⟩ := matches_keyword_iff.mpr hw
  rw [hlast, List.mem_append, List.mem_singleton] at ha
  have hfront : a ∈ grammar.dropLast := by
    refine ha.resolve_right ?_
    rintro rfl
    cases hkind
  cases hfind : grammar.dropLast.find? (·.pattern.accepts w) with
  | none =>
    exact absurd (Pattern.accepts_iff.mpr hmatch) (List.find?_eq_none.mp hfind a hfront)
  | some found =>
    rw [kind?, hlast, List.find?_append, hfind, Option.some_or, Option.map_some, ne_eq,
      Option.some_inj]
    exact hbefore found (List.mem_of_find?_eq_some hfind)

/-- **The kind of a token** is that of any rule that matches it, unless it is a keyword. -/
theorem kind?_of_matches (ha : a ∈ grammar) (h : a.pattern.Matches w) :
    kind? grammar w = some (if String.ofList w ∈ keywords then .keyword else a.kind) := by
  cases hkind : kind? grammar w with
  | none => exact absurd h (kind?_eq_none_iff.mp hkind a ha)
  | some kind =>
    obtain ⟨b, hb, rfl, hwb⟩ := exists_rule_of_kind? hkind
    rw [Option.some_inj]
    split
    · rename_i hword
      obtain ⟨k, hk, hkk, hwk⟩ := matches_keyword_iff.mpr hword
      rcases kind_of_matches hb hk hwb hwk with h1 | ⟨h1, -⟩ | ⟨h1, -⟩
      · exact h1.trans hkk
      · exact h1
      · exact absurd (hkind.trans (congrArg some h1)) (kind?_ne_identifier hword)
    · rename_i hword
      rcases kind_of_matches hb ha hwb h with h1 | ⟨h1, -⟩ | ⟨-, h1⟩
      · exact h1
      · exact absurd (matches_keyword_iff.mp ⟨b, hb, h1, hwb⟩) hword
      · exact absurd (matches_keyword_iff.mp ⟨a, ha, h1, h⟩) hword

/-! ## 3. Words -/

theorem identifier_mem_grammar : (⟨.identifier, identifier⟩ : Rule) ∈ grammar := by
  simp [grammar]

/-- A keyword is a word, and so is a keyword with an at sign before it, which is no keyword. -/
theorem matches_identifier_of_keyword {word : String} (h : word ∈ keywords) :
    identifier.Matches word.toList ∧ identifier.Matches ('@' :: word.toList) ∧
      String.ofList ('@' :: word.toList) ∉ keywords := by
  have hwords : ∀ word ∈ keywords,
      identifier.Matches word.toList ∧ identifier.Matches ('@' :: word.toList) := by
    decide +kernel
  have hfirst : ∀ word ∈ keywords, word.toList.head? ≠ some '@' := by decide +kernel
  obtain ⟨hword, hsigned⟩ := hwords word h
  refine ⟨hword, hsigned, fun hmem => hfirst _ hmem ?_⟩
  rw [String.toList_ofList, List.head?_cons]

/-- A word with letters and digits attached is a word. -/
theorem matches_identifier_append {more : List Char} (h : identifier.Matches w)
    (hmore : ∀ c ∈ more, letterOrDigit.contains c = true) : identifier.Matches (w ++ more) := by
  obtain ⟨sign, word, rfl, hsign, hword⟩ := Pattern.matches_seq_iff.mp h
  obtain ⟨first, others, rfl, hfirst, hothers⟩ := Pattern.matches_seq_iff.mp hword
  rw [Pattern.matches_many_one_iff] at hothers
  have hall : ∀ c ∈ others ++ more, letterOrDigit.contains c = true :=
    List.forall_mem_append.mpr ⟨hothers, hmore⟩
  rw [List.append_assoc, List.append_assoc]
  exact .seq hsign (.seq hfirst (Pattern.matches_many_one_iff.mpr hall))

end Lexer
end UsageReport
