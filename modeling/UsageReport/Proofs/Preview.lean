/-
# Previews of the touched lines

The standard preview of a range shows the lines that the range touches: from the start of the line
of its first offset to the end of the line of its last one (`context?_of_le`).  Both are found for
every range within the text, also where an end of the range is inside a character.  Line ends are
character boundaries, so the stretch is a slice of the text, and the lexer cuts it.

Hence the main statement (`lexicalPreview_tiles`): the runs tile the touched lines, so the text of
a preview is those lines and nothing else, and a preview without runs is a preview of one empty
line.  A range that goes beyond the text touches no lines at all.
-/
import UsageReport.Host.Standard
import UsageReport.Proofs.Document.Lines
import UsageReport.Proofs.Lexer.Tiling
import UsageReport.Proofs.Work

namespace UsageReport

/-! ## 1. The touched lines -/

/-- Of two beginnings of a text, the shorter one is the beginning of the longer one. -/
theorem Text.exists_eq_append {front back front' back' : List Char}
    (h : front ++ back = front' ++ back') (hle : byteCount front ≤ byteCount front') :
    ∃ mid, front' = front ++ mid := by
  rcases List.append_eq_append_iff.mp h with ⟨mid, hfront', -⟩ | ⟨mid, hfront, -⟩
  · exact ⟨mid, hfront'⟩
  · have hmid : mid = [] := by
      rw [hfront, byteCount_append] at hle
      exact byteCount_eq_zero_iff.mp (by omega)
    rw [hmid, List.append_nil] at hfront
    exact ⟨[], by rw [hfront, List.append_nil]⟩

namespace Preview

variable {d : Document} {range : TextRange}

/-- **The touched lines** go from where the line of the start begins to where the line of the
stop ends, and they are a slice of the text. -/
theorem context?_of_le (h : range.stop ≤ d.length) :
    ∃ front mid back context,
      d.text.toList = front ++ mid ++ back ∧
      context.start = Text.byteCount front ∧ context.stop = Text.byteCount (front ++ mid) ∧
      context.start = Text.lineStart (Text.bytes d.text.toList) range.start ∧
      context.stop = Text.lineEnd (Text.bytes d.text.toList) range.stop ∧
      context? d range = some context := by
  have hstart : range.start ≤ d.length := Nat.le_trans range.start_le_stop h
  obtain ⟨front, line, back, hle, hcut, hfront, hline, hat⟩ := Document.lineAt?_of_le hstart
  obtain ⟨front', line', back', hle', hcut', hfront', hline', hat'⟩ := Document.lineAt?_of_le h
  have hmin : Text.byteCount front ≤ Text.byteCount front' := by
    rw [← hcut.lineStart_eq hfront hline, ← hcut'.lineStart_eq hfront' hline']
    exact Text.lineStart_mono _ range.start_le_stop
  have hmax : Text.byteCount (front ++ line) ≤ Text.byteCount (front' ++ line') := by
    rw [← hcut.lineEnd_eq hfront hline, ← hcut'.lineEnd_eq hfront' hline']
    exact Text.lineEnd_mono _ range.start_le_stop
  have hsplit : front ++ (line ++ back) = (front' ++ line') ++ back' := by
    rw [← List.append_assoc, ← hcut.eq_append, hcut'.eq_append]
  obtain ⟨mid, hmid⟩ := Text.exists_eq_append hsplit (Nat.le_trans hle hmax)
  let first : TextRange := ⟨Text.byteCount front, Text.byteCount (front ++ line), hle⟩
  let last : TextRange := ⟨Text.byteCount front', Text.byteCount (front' ++ line'), hle'⟩
  have hcontext : context? d range = some (first.cover last) := by
    rw [context?, hat, hat']
    rfl
  have hcover_start : (first.cover last).start = Text.byteCount front := Nat.min_eq_left hmin
  have hcover_stop : (first.cover last).stop = Text.byteCount (front' ++ line') :=
    Nat.max_eq_right hmax
  refine ⟨front, mid, back', first.cover last, ?_, hcover_start, ?_, ?_, ?_, hcontext⟩
  · rw [hcut'.eq_append, hmid]
  · rw [hcover_stop, hmid]
  · rw [hcover_start, hcut.lineStart_eq hfront hline]
  · rw [hcover_stop, hcut'.lineEnd_eq hfront' hline']

/-- Beyond the text no lines are touched. -/
theorem context?_of_lt (h : d.length < range.stop) : context? d range = none := by
  rw [context?, Document.lineAt?_of_lt h]
  exact Option.bind_fun_none _

/-! ## 2. What the runs of a preview cover -/

variable {p : Preview} {start stop : Nat}

/-- The runs of a tiling cover the whole stretch. -/
theorem coveredRange?_of_tiles (h : Lexer.Tiles start stop p.runs) (hne : p.runs ≠ []) :
    p.coveredRange? = some ⟨start, stop, h.start_le_stop⟩ := by
  obtain ⟨first, hfirst⟩ : ∃ first, p.runs.head? = some first :=
    ⟨_, List.head?_eq_some_head hne⟩
  obtain ⟨last, hlast⟩ : ∃ last, p.runs.getLast? = some last :=
    ⟨_, List.getLast?_eq_some_getLast hne⟩
  rw [coveredRange?, hfirst, hlast, Option.bind_some, Option.bind_some,
    h.start_of_head? hfirst, h.stop_of_getLast? hlast]
  exact TextRange.ofBounds?_eq_some_iff.mpr ⟨rfl, rfl⟩

theorem coveredRange?_of_nil (h : p.runs = []) : p.coveredRange? = none := by
  rw [coveredRange?, h]
  rfl

/-- **The runs of the standard preview**: they tile the touched lines. -/
theorem lexical_of_le (h : range.stop ≤ d.length) :
    ∃ lines text, d.slice? lines = some text ∧
      lines.start = Text.lineStart (Text.bytes d.text.toList) range.start ∧
      lines.stop = Text.lineEnd (Text.bytes d.text.toList) range.stop ∧
      Lexer.Tiles lines.start lines.stop (lexical d range).runs ∧
      ((lexical d range).runs.map ClassifiedRun.kind).IsChain Lexer.Distinct ∧
      ∀ run ∈ (lexical d range).runs, ∃ text, d.slice? run.range = some text := by
  obtain ⟨front, mid, back, lines, htext, hstart, hstop, hfirst, hlast, hcontext⟩ :=
    context?_of_le h
  have hslice : Text.slice? lines.start lines.stop d.text.toList = some mid :=
    Text.slice?_eq_some_iff.mpr ⟨front, back, htext, hstart.symm, hstop.symm⟩
  have hruns : (lexical d range).runs = Lexer.classify (Text.byteCount front) mid := by
    rw [lexical, hcontext]
    dsimp only
    rw [hslice, Option.getD_some, hstart]
  refine ⟨lines, String.ofList mid, ?_, hfirst, hlast, ?_, ?_, ?_⟩
  · rw [Document.slice?, hslice]
    rfl
  · rw [hruns, hstart, hstop, Text.byteCount_append]
    exact Lexer.tiles_classify _ mid
  · rw [hruns]
    exact Lexer.isChain_classify _ mid
  · intro run hrun
    rw [hruns] at hrun
    obtain ⟨text, hpiece⟩ := Lexer.slice?_of_mem_classify front mid back hrun
    rw [← htext] at hpiece
    exact ⟨String.ofList text, by rw [Document.slice?, hpiece]; rfl⟩

/-- The standard preview of a range that goes beyond the text has no runs. -/
theorem lexical_of_lt (h : d.length < range.stop) : (lexical d range).runs = [] := by
  rw [lexical, context?_of_lt h]

end Preview

/-- While its signal is down, the standard classifier gives the standard preview. -/
theorem Host.lexicalPreview_of_calm {σ : Type} {signal : Signal} {s : Session σ}
    (hs : s.Calm signal) (d : Document) (range : TextRange) :
    lexicalPreview signal d range s = .ok (.lexical d range) s :=
  Work.bind_of_ok _ (Work.heed_of_not_raised hs)

/-! ## 3. The main statement -/

/-- **The standard preview tiles the touched lines**, from the start of the first line to the end
of the last one, with runs of whole characters of which no two neighbours are plain text.  So its
text is those lines, and it has no text only if they are one empty line.  Beyond the text there
are no runs, and in either case the highlight is the range that was asked for. -/
theorem Host.lexicalPreview_tiles {σ : Type} {signal : Signal} {s : Session σ}
    (hs : s.Calm signal) (d : Document) (range : TextRange) :
    ∃ p : Preview, lexicalPreview signal d range s = .ok p s ∧ p.highlight = range ∧
      (range.stop ≤ d.length →
        ∃ lines text, d.slice? lines = some text ∧
          lines.start = Text.lineStart (Text.bytes d.text.toList) range.start ∧
          lines.stop = Text.lineEnd (Text.bytes d.text.toList) range.stop ∧
          Lexer.Tiles lines.start lines.stop p.runs ∧
          (p.runs.map ClassifiedRun.kind).IsChain Lexer.Distinct ∧
          (∀ run ∈ p.runs, ∃ text, d.slice? run.range = some text) ∧
          (p.runs = [] ↔ lines.length = 0) ∧
          p.text? d = if p.runs = [] then none else some text) ∧
      (d.length < range.stop → p.runs = []) ∧
      ∀ first last, p.runs.head? = some first → p.runs.getLast? = some last →
        first.range.start ≤ last.range.stop := by
  refine ⟨.lexical d range, Work.bind_of_ok _ (Work.heed_of_not_raised hs), rfl, ?_,
    Preview.lexical_of_lt, ?_⟩
  · intro hle
    obtain ⟨lines, text, hslice, hstart, hstop, htiles, hchain, hwhole⟩ :=
      Preview.lexical_of_le hle
    refine ⟨lines, text, hslice, hstart, hstop, htiles, hchain, hwhole, ?_, ?_⟩
    · have := lines.start_le_stop
      rw [htiles.eq_nil_iff, TextRange.length]
      omega
    · split
      · rename_i hnil
        rw [Preview.text?, Preview.coveredRange?_of_nil hnil, Option.bind_none]
      · rename_i hne
        rw [Preview.text?, Preview.coveredRange?_of_tiles htiles hne, Option.bind_some]
        exact hslice
  · intro first last hfirst hlast
    by_cases hle : range.stop ≤ d.length
    · obtain ⟨lines, -, -, -, -, htiles, -⟩ := Preview.lexical_of_le hle
      rw [htiles.start_of_head? hfirst, htiles.stop_of_getLast? hlast]
      exact htiles.start_le_stop
    · rw [Preview.lexical_of_lt (Nat.lt_of_not_le hle)] at hfirst
      cases hfirst

/-- A range over two lines that stops inside a character: its preview shows both lines whole. -/
theorem Host.lexicalPreview_tiles_sample :
    ∃ p : Preview,
      lexicalPreview .request ⟨⟨0⟩, "a.cs", "x\nab\né$\ncd", none⟩ ⟨3, 6, by decide⟩
          (⟨false, ()⟩ : Session Unit) = .ok p ⟨false, ()⟩ ∧
        Lexer.Tiles 2 8 p.runs ∧
        p.text? ⟨⟨0⟩, "a.cs", "x\nab\né$\ncd", none⟩ = some "ab\né$" := by
  obtain ⟨p, hp, -, hwithin, -⟩ := @lexicalPreview_tiles Unit .request ⟨false, ()⟩ rfl
    ⟨⟨0⟩, "a.cs", "x\nab\né$\ncd", none⟩ ⟨3, 6, by decide⟩
  obtain ⟨lines, text, hslice, hstart, hstop, htiles, -, -, hnil, htext⟩ := hwithin (by decide)
  have hlines : TextRange.ofBounds? 2 8 = some lines :=
    TextRange.ofBounds?_eq_some_iff.mpr ⟨hstart.trans (by decide), hstop.trans (by decide)⟩
  cases hlines
  refine ⟨p, hp, htiles, ?_⟩
  rw [htext, if_neg (mt hnil.mp (by decide)), ← hslice]
  decide

end UsageReport
