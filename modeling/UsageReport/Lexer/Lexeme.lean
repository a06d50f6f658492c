/-
# Cutting a text into lexemes

At each point of a text the longest token wins: of all beginnings of the rest that some rule
matches, the longest one is taken (`longest?`).  Where no rule matches any beginning, the
lexer gives up on what it has read, which is everything before the character that no rule
could take any more (`reach`), but at least one character, and calls it plain text.  Then it
goes on behind.  So every text can be cut, and nothing of it is lost.

Neighbouring pieces of plain text are joined, and the result is placed at an offset of the
document as classified runs (`classify`).
-/
import UsageReport.Lexer.Grammar
import UsageReport.Text.Bytes
import UsageReport.Text.Range

namespace UsageReport

/-- A piece of text of one kind. -/
structure Lexeme where
  kind : TextKind
  text : List Char
deriving DecidableEq

/-- A stretch of a document of one kind. -/
structure ClassifiedRun where
  range : TextRange
  kind : TextKind
deriving DecidableEq

namespace Lexer

/-! ## 1. Reading on under all rules at once -/

/-- The rules after a character has been read; those that cannot take it are gone. -/
def advance (c : Char) (rules : List Rule) : List Rule :=
  rules.filterMap fun rule =>
    let rest := rule.pattern.derivative c
    if rest.isNever then none else some ⟨rule.kind, rest⟩

/-- The kind of the first rule that has read a whole text. -/
def accepted? (rules : List Rule) : Option TextKind :=
  (rules.find? (·.pattern.acceptsEmpty)).map Rule.kind

/-- The longest beginning that a rule matches: its kind and its number of characters.  It has
at least one. -/
def longest? (rules : List Rule) : List Char → Option (TextKind × Nat)
  | [] => none
  | c :: cs =>
    let next := advance c rules
    if next.isEmpty then none
    else
      match longest? next cs with
      | some (kind, n) => some (kind, n + 1)
      | none => (accepted? next).map (·, 1)

/-- How many characters can be read before no rule is left.  To go this far where no token begins
is a choice of the lexer's generator and does not follow from the rules.  The results about runs do
not depend on it: they need only that a piece without a token has at least one character
(`head_pos`). -/
def reach (rules : List Rule) : List Char → Nat
  | [] => 0
  | c :: cs =>
    let next := advance c rules
    if next.isEmpty then 0 else reach next cs + 1

/-! ## 2. Cutting -/

/-- The kind and the number of characters of what the text begins with. -/
def head (cs : List Char) : TextKind × Nat :=
  match longest? grammar cs with
  | some found => found
  | none => (.text, max 1 (reach grammar cs))

theorem longest?_pos {rules : List Rule} {cs : List Char} {kind : TextKind} {n : Nat}
    (h : longest? rules cs = some (kind, n)) : 1 ≤ n := by
  cases cs with
  | nil => simp [longest?] at h
  | cons c cs =>
    simp only [longest?] at h
    split at h
    · exact absurd h (by simp)
    · split at h
      · simp only [Option.some.injEq, Prod.mk.injEq] at h
        omega
      · simp only [Option.map_eq_some_iff, Prod.mk.injEq] at h
        obtain ⟨_, _, _, h1⟩ := h
        omega

theorem head_pos (cs : List Char) : 1 ≤ (head cs).2 := by
  unfold head
  split
  · rename_i found hf
    obtain ⟨kind, n⟩ := found
    exact longest?_pos hf
  · exact Nat.le_max_left _ _

/-- The text cut into lexemes, from its beginning to its end. -/
def cut : List Char → List Lexeme
  | [] => []
  | c :: cs =>
    ⟨(head (c :: cs)).1, (c :: cs).take (head (c :: cs)).2⟩ ::
      cut ((c :: cs).drop (head (c :: cs)).2)
termination_by cs => cs.length
decreasing_by
  have := head_pos (c :: cs)
  simp only [List.length_drop, List.length_cons]
  omega

/-- Join neighbours that are both plain text. -/
def joinText : List Lexeme → List Lexeme
  | [] => []
  | a :: rest =>
    match joinText rest with
    | [] => [a]
    | b :: more =>
      if a.kind = .text ∧ b.kind = .text then ⟨.text, a.text ++ b.text⟩ :: more
      else a :: b :: more

/-! ## 3. Placing -/

/-- Lexemes side by side, from the offset `base` on. -/
def place (base : Nat) : List Lexeme → List ClassifiedRun
  | [] => []
  | a :: rest =>
    ⟨⟨base, base + Text.byteCount a.text, by omega⟩, a.kind⟩ ::
      place (base + Text.byteCount a.text) rest

/-- The runs of a text that stands at the offset `base` of its document. -/
def classify (base : Nat) (text : List Char) : List ClassifiedRun :=
  place base (joinText (cut text))

end Lexer
end UsageReport
