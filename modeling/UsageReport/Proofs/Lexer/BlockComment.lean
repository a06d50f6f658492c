/-
# Where block comments end

Behind its opening the pattern of a block comment has two states only, and which one it is in
depends on whether a star has been read that still waits for its partner (`inside`).  The
derivative of either state by any character is a state again, or it is the end of the comment
(`advance_inside`).  So the lexer finds the end of a comment by reading stars in pairs
(`closing?`, `longest?_inside`), and what a text with an opening begins with is settled by this
alone (`head_opening`).

A comment that the language closes ends at the first star with a slash behind it.  If the body in
front of that star has no closing of its own, then the state behind the body depends on the number
of stars at its end (`unpaired_eq_true_iff`): an even number is used up in pairs, an odd number
leaves one that takes the star of the closing for its partner.  Hence the main statement
(`head?_classify_blockComment`): the first run is the comment up to its first closing exactly when
the body ends in an even number of stars.  Otherwise the slash of the closing is an ordinary
character of the body, and the comment goes on into whatever follows, to the next closing there;
if there is none, the opening slash is an operator.
-/
import Mathlib.Algebra.Group.Nat.Even
import Mathlib.Data.List.Induction
import UsageReport.Proofs.Lexer.Pattern
import UsageReport.Proofs.Lexer.Runs

namespace UsageReport
namespace Lexer

/-! ## 1. Two states -/

/-- What is left of the comment pattern behind the opening.  In the state `pending` a star has
been read that belongs to a pair or to the closing. -/
def inside (pending : Bool) : Pattern :=
  if pending then
    .either
      (.seq (.seq (.one (.noneOf ['/'])) (.many commentStep)) (.text ['*', '/']))
      (.char '/')
  else .seq (.many commentStep) (.text ['*', '/'])

/-- The number of characters up to the end of the comment, if it ends. -/
def closing? : Bool → List Char → Option Nat
  | _, [] => none
  | pending, c :: cs =>
    if pending && c == '/' then some 1
    else (closing? (!pending && c == '*') cs).map (· + 1)

/-- **One character.**  It is the slash that ends the comment, or it leads to a state. -/
theorem advance_inside (pending : Bool) (c : Char) :
    advance c [⟨.comment, inside pending⟩] =
      [⟨.comment, if pending && c == '/' then .empty else inside (!pending && c == '*')⟩] := by
  cases pending with
  | false =>
    by_cases hc : c = '*'
    · subst hc
      decide
    · have hout : (CharSet.anyOf ['*']).contains c = false := by
        rw [← Bool.not_eq_true, CharSet.contains_anyOf_iff]
        simpa using hc
      have hin : (CharSet.noneOf ['*']).contains c = true := by
        simpa [CharSet.contains_noneOf_iff] using hc
      simp [advance, inside, commentStep, Pattern.derivative, Pattern.char, Pattern.text,
        Pattern.choice, Pattern.chain, Pattern.acceptsEmpty, Pattern.isNever, hout, hin, hc]
  | true =>
    by_cases hc : c = '/'
    · subst hc
      decide
    · have hout : (CharSet.anyOf ['/']).contains c = false := by
        rw [← Bool.not_eq_true, CharSet.contains_anyOf_iff]
        simpa using hc
      have hin : (CharSet.noneOf ['/']).contains c = true := by
        simpa [CharSet.contains_noneOf_iff] using hc
      simp [advance, inside, commentStep, Pattern.derivative, Pattern.char, Pattern.text,
        Pattern.choice, Pattern.chain, Pattern.acceptsEmpty, Pattern.isNever, hout, hin, hc]

/-- Nothing can follow a comment that has ended. -/
theorem longest?_ended (cs : List Char) :
    longest? [⟨.comment, .empty⟩] cs = none := by
  cases cs <;> rfl

/-- **The longest comment is the one that `closing?` finds.** -/
theorem longest?_inside (pending : Bool) (cs : List Char) :
    longest? [⟨.comment, inside pending⟩] cs =
      (closing? pending cs).map fun n => (.comment, n) := by
  induction cs generalizing pending with
  | nil => rfl
  | cons c cs ih =>
    rw [longest?, advance_inside, closing?]
    cases hend : pending && c == '/' with
    | true =>
      simp only [if_true, longest?_ended, List.isEmpty_cons]
      rfl
    | false =>
      simp only [Bool.false_eq_true, if_false, ih, List.isEmpty_cons]
      cases closing? (!pending && c == '*') cs with
      | some n => rfl
      | none => cases (!pending && c == '*') <;> rfl

theorem advance_opening : advance '*' (advance '/' grammar) = [⟨.comment, inside false⟩] := by
  decide

theorem accepted?_slash : accepted? (advance '/' grammar) = some .operator := by
  decide

/-- **What a text with an opening begins with**: the comment that `closing?` finds, or else the
slash as an operator. -/
theorem head_opening (cs : List Char) :
    head ('/' :: '*' :: cs) =
      match closing? false cs with
      | some n => (.comment, n + 2)
      | none => (.operator, 1) := by
  have hopen : longest? grammar ('/' :: '*' :: cs) =
      match closing? false cs with
      | some n => some (.comment, n + 2)
      | none => some (.operator, 1) := by
    have hslash : (advance '/' grammar).isEmpty = false := by decide
    rw [longest?, longest?, advance_opening, longest?_inside, accepted?_slash]
    simp only [hslash, List.isEmpty_cons]
    cases closing? false cs <;> rfl
  rw [head, hopen]
  cases closing? false cs <;> rfl

/-! ## 2. The state behind a body -/

/-- The state behind a text: whether a star is left without a partner. -/
def unpaired (pending : Bool) (cs : List Char) : Bool :=
  cs.foldl (fun pending c => !pending && c == '*') pending

/-- The number of stars at the end of a text. -/
def trailingStars (cs : List Char) : Nat := (cs.reverse.takeWhile (· == '*')).length

theorem trailingStars_append_singleton (cs : List Char) (c : Char) :
    trailingStars (cs ++ [c]) = if c = '*' then trailingStars cs + 1 else 0 := by
  rw [trailingStars, List.reverse_append, List.reverse_singleton, List.singleton_append,
    List.takeWhile_cons]
  by_cases hc : c = '*' <;> simp [hc, trailingStars]

theorem unpaired_append_singleton (pending : Bool) (cs : List Char) (c : Char) :
    unpaired pending (cs ++ [c]) = (!unpaired pending cs && c == '*') := by
  rw [unpaired, List.foldl_append]
  rfl

/-- **Stars are used up in pairs**: one is left exactly when their number is odd. -/
theorem unpaired_eq_true_iff (cs : List Char) :
    unpaired false cs = true ↔ ¬ Even (trailingStars cs) := by
  induction cs using List.reverseRecOn with
  | nil => simp [unpaired, trailingStars]
  | append_singleton cs c ih =>
    rw [unpaired_append_singleton, trailingStars_append_singleton]
    by_cases hc : c = '*'
    · rw [if_pos hc, Nat.even_add_one, ← ih]
      simp [hc]
    · rw [if_neg hc]
      simp [hc]

/-- A text without a closing is read through, whatever follows it. -/
theorem closing?_append {pending : Bool} {body : List Char} (tail : List Char)
    (h : ¬ ['*', '/'] <:+: if pending then '*' :: body else body) :
    closing? pending (body ++ tail) =
      (closing? (unpaired pending body) tail).map (· + body.length) := by
  induction body generalizing pending with
  | nil => simp [unpaired]
  | cons c body ih =>
    have hend : (pending && c == '/') = false := by
      by_contra hc
      rw [Bool.not_eq_false, Bool.and_eq_true, beq_iff_eq] at hc
      obtain ⟨rfl, rfl⟩ := hc
      exact h ⟨[], body, rfl⟩
    have hnext : ¬ ['*', '/'] <:+: if !pending && c == '*' then '*' :: body else body := by
      intro hin
      refine h ?_
      split at hin
      · rename_i hstar
        rw [Bool.and_eq_true, Bool.not_eq_true', beq_iff_eq] at hstar
        obtain ⟨rfl, rfl⟩ := hstar
        exact hin
      · cases pending
        · exact List.infix_cons hin
        · exact List.infix_cons (List.infix_cons hin)
    rw [List.cons_append, closing?, hend, if_neg Bool.false_ne_true, ih hnext, Option.map_map]
    rfl

/-- **Where the closing behind a body leads.**  Behind an even number of stars it ends the
comment, and behind an odd number the comment goes on. -/
theorem closing?_body {body : List Char} (h : ¬ ['*', '/'] <:+: body) (rest : List Char) :
    closing? false (body ++ '*' :: '/' :: rest) =
      if Even (trailingStars body) then some (body.length + 2)
      else (closing? false rest).map (· + (body.length + 2)) := by
  rw [closing?_append _ (by simpa using h)]
  by_cases heven : Even (trailingStars body)
  · have hstate : unpaired false body = false := by
      rw [← Bool.not_eq_true, unpaired_eq_true_iff]
      exact not_not.mpr heven
    rw [hstate, if_pos heven]
    simp [closing?]
    omega
  · rw [(unpaired_eq_true_iff body).mpr heven, if_neg heven]
    cases hrest : closing? false rest with
    | none => simp [closing?, hrest]
    | some n =>
      simp [closing?, hrest]
      omega

/-- A comment that ends takes something with it. -/
theorem take_ne_nil_of_closing? {pending : Bool} {cs : List Char} {n : Nat}
    (h : closing? pending cs = some n) : cs.take n ≠ [] := by
  cases cs with
  | nil => simp [closing?] at h
  | cons c cs =>
    rw [closing?] at h
    split at h
    · cases h
      simp
    · obtain ⟨m, -, rfl⟩ := Option.map_eq_some_iff.mp h
      simp

/-! ## 3. The first run of a comment -/

/-- A body between the delimiters of a comment. -/
def delimited (body : List Char) : List Char := ['/', '*'] ++ body ++ ['*', '/']

theorem delimited_append (body rest : List Char) :
    delimited body ++ rest = '/' :: '*' :: (body ++ '*' :: '/' :: rest) := by
  simp [delimited]

theorem length_delimited (body : List Char) : (delimited body).length = body.length + 4 := by
  simp [delimited]

/-- **The first run of a text that begins with a comment.**  Behind an even number of stars the
closing ends the comment.  Behind an odd number the comment goes on to the closing that the rest
has for it, and without one the opening slash is an operator. -/
theorem head?_classify_delimited (base : Nat) {body : List Char} (rest : List Char)
    (h : ¬ ['*', '/'] <:+: body) :
    (classify base (delimited body ++ rest)).head? =
      if Even (trailingStars body) then some (runOf base .comment (delimited body))
      else
        match closing? false rest with
        | some n => some (runOf base .comment (delimited body ++ rest.take n))
        | none => some (runOf base .operator ['/']) := by
  have hhead := head_opening (body ++ '*' :: '/' :: rest)
  rw [closing?_body h, ← delimited_append] at hhead
  have hne : delimited body ++ rest ≠ [] := by simp [delimited]
  have hfirst := head?_classify base hne
  by_cases heven : Even (trailingStars body)
  · rw [if_pos heven] at hhead ⊢
    rw [hfirst (by simp [hhead]), hhead]
    have hlen : body.length + 2 + 2 = (delimited body).length := (length_delimited body).symm
    simp only [hlen, List.take_left]
  · rw [if_neg heven] at hhead ⊢
    cases hrest : closing? false rest with
    | some n =>
      rw [hrest, Option.map_some] at hhead
      rw [hfirst (by simp [hhead]), hhead]
      have hlen : n + (body.length + 2) + 2 = (delimited body).length + n := by
        rw [length_delimited]
        omega
      simp only [hlen, List.take_length_add_append]
    | none =>
      rw [hrest, Option.map_none] at hhead
      rw [hfirst (by simp [hhead]), hhead]
      rfl

/-- **Where a comment ends.**  The first run is the comment up to its first closing exactly when
the body ends in an even number of stars.  When it does not, the first run is a comment that goes
on into the rest, or it is the opening slash. -/
theorem head?_classify_blockComment (base : Nat) {body : List Char} (rest : List Char)
    (h : ¬ ['*', '/'] <:+: body) :
    ((classify base (delimited body ++ rest)).head? =
        some (runOf base .comment (delimited body)) ↔
      Even (trailingStars body)) ∧
    (¬ Even (trailingStars body) →
      (∃ more, more ≠ [] ∧ more <+: rest ∧
        (classify base (delimited body ++ rest)).head? =
          some (runOf base .comment (delimited body ++ more))) ∨
      (classify base (delimited body ++ rest)).head? = some (runOf base .operator ['/'])) := by
  have hfirst := head?_classify_delimited base rest h
  by_cases heven : Even (trailingStars body)
  · rw [if_pos heven] at hfirst
    exact ⟨iff_of_true hfirst heven, fun hodd => absurd heven hodd⟩
  · rw [if_neg heven] at hfirst
    cases hrest : closing? false rest with
    | none =>
      rw [hrest] at hfirst
      refine ⟨iff_of_false ?_ heven, fun _ => .inr hfirst⟩
      simp [hfirst, runOf]
    | some n =>
      rw [hrest] at hfirst
      have hmore : rest.take n ≠ [] := take_ne_nil_of_closing? hrest
      refine ⟨iff_of_false ?_ heven,
        fun _ => .inl ⟨rest.take n, hmore, List.take_prefix n rest, hfirst⟩⟩
      have hbytes : Text.byteCount (rest.take n) ≠ 0 :=
        fun h0 => hmore (Text.byteCount_eq_zero_iff.mp h0)
      simp [hfirst, runOf, hbytes]

/-- Two stars before the closing are a pair, and the comment does not go on to a second closing.
A single star takes the star of the closing, and there is no comment. -/
theorem head?_classify_blockComment_sample :
    (classify 0 (delimited ['a', '*', '*'] ++ ['*', '/'])).head? =
        some (runOf 0 .comment (delimited ['a', '*', '*'])) ∧
      (classify 0 (delimited ['*'] ++ [])).head? ≠ some (runOf 0 .comment (delimited ['*'])) :=
  ⟨(head?_classify_blockComment 0 ['*', '/'] (by decide)).1.mpr (by decide),
    fun h => absurd ((head?_classify_blockComment 0 [] (by decide)).1.mp h) (by decide)⟩

end Lexer
end UsageReport
