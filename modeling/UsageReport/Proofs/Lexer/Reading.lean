/-
# Reading under several rules

Rules give a text a kind: that of the first rule which matches it, if there is one (`kind?`).  The
lexer does not ask this of whole texts.  It reads on under all rules at once and keeps of each rule
what is left of it, and it drops a rule as soon as nothing can follow.

Both come to the same, because what is left of the rules behind a character gives the rest of a
text the kind that the rules give to the text (`kind?_cons`).  This is the step; by induction over
the text, the lexer finds the longest beginning to which the rules give a kind, and it finds none
only if there is none (`longest?_spec`).  No property of the rules is used.
-/
import UsageReport.Lexer.Lexeme

namespace UsageReport

/-! ## 1. One pattern -/

namespace Pattern

/-- Whether a text is one of those that a pattern describes, found by reading it to its end. -/
def accepts : Pattern → List Char → Bool
  | p, [] => p.acceptsEmpty
  | p, c :: w => accepts (p.derivative c) w

theorem accepts_iff {p : Pattern} {w : List Char} : p.accepts w = true ↔ Matches p w := by
  induction w generalizing p with
  | nil => exact acceptsEmpty_iff
  | cons c w ih => rw [accepts, ih, matches_derivative_iff]

instance (p : Pattern) (w : List Char) : Decidable (Matches p w) :=
  decidable_of_iff _ accepts_iff

/-- A pattern of which nothing is left describes nothing. -/
theorem not_accepts_of_isNever {p : Pattern} (h : p.isNever = true) (w : List Char) :
    p.accepts w = false := by
  rw [← Bool.not_eq_true, accepts_iff]
  cases p with
  | never => exact not_matches_never
  | _ => cases h

end Pattern

/-! ## 2. Several rules -/

namespace Lexer

variable {rules : List Rule} {w cs : List Char} {kind : TextKind} {n : Nat}

/-- The kind of the first rule that matches a text. -/
def kind? (rules : List Rule) (w : List Char) : Option TextKind :=
  (rules.find? (·.pattern.accepts w)).map Rule.kind

theorem kind?_eq_none_iff :
    kind? rules w = none ↔ ∀ rule ∈ rules, ¬ rule.pattern.Matches w := by
  rw [kind?, Option.map_eq_none_iff, List.find?_eq_none]
  simp only [Pattern.accepts_iff]

/-- A kind is that of a rule which matches. -/
theorem exists_rule_of_kind? (h : kind? rules w = some kind) :
    ∃ rule ∈ rules, rule.kind = kind ∧ rule.pattern.Matches w := by
  obtain ⟨rule, hfind, hkind⟩ := Option.map_eq_some_iff.mp h
  have haccepts : rule.pattern.accepts w = true := by simpa using List.find?_some hfind
  exact ⟨rule, List.mem_of_find?_eq_some hfind, hkind, Pattern.accepts_iff.mp haccepts⟩

/-- **One character.**  What is left of the rules gives the rest its kind. -/
theorem kind?_cons (rules : List Rule) (c : Char) (w : List Char) :
    kind? rules (c :: w) = kind? (advance c rules) w := by
  induction rules with
  | nil => rfl
  | cons rule rules ih =>
    rw [kind?, kind?, advance, List.filterMap_cons, List.find?_cons, Pattern.accepts]
    dsimp only
    by_cases hnever : (rule.pattern.derivative c).isNever = true
    · rw [Pattern.not_accepts_of_isNever hnever, if_pos hnever]
      exact ih
    · rw [if_neg hnever, List.find?_cons]
      cases (rule.pattern.derivative c).accepts w with
      | true => rfl
      | false => exact ih

/-- When no rule is left after a character, no text that begins with it has a kind. -/
theorem kind?_cons_of_advance_nil {c : Char} (h : (advance c rules).isEmpty = true)
    (w : List Char) : kind? rules (c :: w) = none := by
  rw [kind?_cons, List.isEmpty_iff.mp h]
  rfl

/-! ## 3. The longest beginning -/

/-- Where no longer beginning of the rest has a kind, no longer beginning of the text has one. -/
theorem kind?_eq_none_of_longer {c : Char}
    (h : ∀ w, w <+: cs → n < w.length → kind? (advance c rules) w = none) :
    ∀ w, w <+: c :: cs → n + 1 < w.length → kind? rules w = none := by
  intro w hw hlt
  obtain rfl | ⟨rest, rfl, hrest⟩ := List.prefix_cons_iff.mp hw
  · exact absurd hlt (Nat.not_lt_zero _)
  · rw [kind?_cons]
    exact h rest hrest (Nat.lt_of_succ_lt_succ hlt)

/-- **What the lexer finds** has the kind that it says, and nothing longer has a kind; and where
it finds nothing, no beginning has one. -/
theorem longest?_spec (rules : List Rule) (cs : List Char) :
    match longest? rules cs with
    | some (kind, n) => n ≤ cs.length ∧ kind? rules (cs.take n) = some kind ∧
        ∀ w, w <+: cs → n < w.length → kind? rules w = none
    | none => ∀ w, w <+: cs → 0 < w.length → kind? rules w = none := by
  induction cs generalizing rules with
  | nil =>
    intro w hw hlt
    rw [List.prefix_nil.mp hw] at hlt
    exact absurd hlt (Nat.lt_irrefl 0)
  | cons c cs ih =>
    have hnext := ih (advance c rules)
    rw [longest?]
    by_cases hend : (advance c rules).isEmpty = true
    · simp only [hend, if_true]
      intro w hw hlt
      obtain rfl | ⟨rest, rfl, -⟩ := List.prefix_cons_iff.mp hw
      · exact absurd hlt (Nat.lt_irrefl 0)
      · exact kind?_cons_of_advance_nil hend rest
    · simp only [hend]
      cases hlongest : longest? (advance c rules) cs with
      | some found =>
        rw [hlongest] at hnext
        obtain ⟨hle, hkind, hlonger⟩ := hnext
        refine ⟨Nat.succ_le_succ hle, ?_, kind?_eq_none_of_longer hlonger⟩
        rw [List.take_succ_cons, kind?_cons, hkind]
      | none =>
        -- Of the beginnings only the character by itself can have a kind.
        rw [hlongest] at hnext
        have hone : kind? rules [c] = accepted? (advance c rules) := kind?_cons rules c []
        cases haccepted : accepted? (advance c rules) with
        | some kind =>
          rw [haccepted] at hone
          exact ⟨Nat.succ_le_succ (Nat.zero_le _), hone, kind?_eq_none_of_longer hnext⟩
        | none =>
          rw [haccepted] at hone
          intro w hw hlt
          obtain rfl | ⟨rest, rfl, -⟩ := List.prefix_cons_iff.mp hw
          · exact absurd hlt (Nat.lt_irrefl 0)
          · cases rest with
            | nil => exact hone
            | cons d rest => exact kind?_eq_none_of_longer hnext _ hw (by simp)

end Lexer
end UsageReport
