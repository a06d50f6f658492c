/-
# Previews and columns

A rich client that is told of a reference gets lines and columns, and with them a text to show.
The columns come from the line index, by way of the span.  The text is that of the preview, for
which two lines were looked up and the runs of the lexer were put together.  A client that
underlines the reference in the text relies on both being about the same lines.

They are (`Document.linesUp`).  In bytes the text goes from where the line of the start begins to
where the line of the end stops (`Preview.text?_lexical`), and these are the lines of the span.  So
the newlines of the text are those between the two lines.  And a slice of the text is a slice of
the document, only counted from the start of the first line, which is how columns count
(`TouchedLines.slice?_relative`).

The main statement (`reference_lines_up`) is about a reference that was made of a hit within its
document, and about the location that stands for it in an answer.
-/
import UsageReport.Proofs.Client.Answer
import UsageReport.Proofs.Document.Solution
import UsageReport.Proofs.Item.Hit
import UsageReport.Proofs.Preview.Highlight

namespace UsageReport

/-! ## 1. Newlines -/

namespace Text

/-- There are as many newline bytes as newlines. -/
theorem count_newline_bytes (cs : List Char) : (bytes cs).count newline = cs.count '\n' := by
  induction cs with
  | nil => rfl
  | cons c cs ih =>
    rw [bytes_cons, List.count_append, ih]
    by_cases hc : c = '\n'
    · rw [hc, utf8EncodeChar_newline, List.count_singleton_self, List.count_cons_self,
        Nat.add_comm]
    · rw [List.count_eq_zero.mpr (mt newline_mem_utf8EncodeChar_iff.mp hc),
        List.count_cons_of_ne hc, Nat.zero_add]

end Text

/-- The line on which a beginning of the text ends is the number of newlines in it. -/
theorem LineIndex.lineAt_byteCount {text : String} {front back : List Char}
    (h : text.toList = front ++ back) :
    (ofText text).lineAt (Text.byteCount front) = front.count '\n' := by
  rw [lineAt_ofText, h, Text.bytes_append, ← Text.length_bytes, List.take_left',
    Text.count_newline_bytes]
  rfl

/-! ## 2. Touched lines and spans -/

variable {d : Document} {range : TextRange} {span : Span} {front lines back : List Char}

/-- **The text lines up with the span**: it is the text of the lines of the span, and the range
stands in it where the columns of the span say. -/
structure Document.LinesUp (d : Document) (range : TextRange) (span : Span) (text : String) :
    Prop where
  /-- The text goes from column 0 of the first line to the end of the last one. -/
  lines : ∃ lines last, d.slice? lines = some text ∧
    d.offset? ⟨span.start.line, 0⟩ = some lines.start ∧
    d.lines.lineRange? span.stop.line.toNat = some last ∧ lines.stop = last.stop
  /-- There are as many newlines in it as the last line is behind the first one. -/
  newlines : span.start.line.toNat + text.toList.count '\n' = span.stop.line.toNat
  /-- It is empty exactly if it is one line without a character. -/
  empty_iff : text = "" ↔ span.start.line = span.stop.line ∧
    (d.text.toList.splitOn '\n')[span.start.line.toNat]? = some []
  /-- From the column of the start, and as long as the range, stands what the document has in the
  range, also if that is nothing because the range cuts a character. -/
  part : (Text.slice? span.start.column.toNat (span.start.column.toNat + range.length)
    text.toList).map String.ofList = d.slice? range
  /-- On one line that is up to the column of the end. -/
  columns : span.start.line = span.stop.line →
    span.start.column.toNat + range.length = span.stop.column.toNat

namespace Document
namespace TouchedLines

variable (h : d.TouchedLines range front lines back) (small : d.length < 2 ^ 32)
  (hspan : d.span? range = some span)

include h small hspan

/-- The touched lines go from column 0 of the first line to the end of the last one. -/
theorem bounds : ∃ touched last, d.slice? touched = some (String.ofList lines) ∧
    d.offset? ⟨span.start.line, 0⟩ = some touched.start ∧
    d.lines.lineRange? span.stop.line.toNat = some last ∧ touched.stop = last.stop := by
  obtain ⟨⟨hle, hline, -⟩, hle', hline', -⟩ := of_span? small hspan
  have hbegin : d.offset? ⟨span.start.line, 0⟩ = some (Text.byteCount front) := by
    refine LineIndex.offset?_eq_some_iff.mpr ⟨_, ?_, Nat.add_zero _, ?_⟩
    · rw [← hline, lineStart?_lineAt hle, h.front_eq]
    · rw [← hline, lineEnd_lineAt hle, h.front_eq]
      exact Nat.le_trans (Text.lineStart_le _ _) (Text.le_lineEnd _ _)
  obtain ⟨last, hlast, -, hend⟩ := lineRange?_lineAt hle'
  exact ⟨Text.stretch front lines, last, h.slice?_stretch, hbegin, by rw [← hline', hlast],
    by rw [hend, ← h.lines_eq, Text.stretch_stop]⟩

/-- The newlines in them are those between the lines of the range. -/
theorem count_newline : span.start.line.toNat + lines.count '\n' = span.stop.line.toNat := by
  obtain ⟨⟨hle, hline, -⟩, hle', hline', -⟩ := of_span? small hspan
  have hcut : d.text.toList = front ++ (lines ++ back) := by rw [h.eq_append, List.append_assoc]
  have hbefore : d.lines.lineAt (Text.byteCount front) = front.count '\n' :=
    LineIndex.lineAt_byteCount hcut
  have hthrough : d.lines.lineAt (Text.byteCount (front ++ lines)) = (front ++ lines).count '\n' :=
    LineIndex.lineAt_byteCount h.eq_append
  rw [h.front_eq, lineAt_lineStart hle, hline] at hbefore
  rw [h.lines_eq, lineAt_lineEnd hle', hline', List.count_append] at hthrough
  omega

/-- They are empty exactly if the span is on one line without a character. -/
theorem eq_nil_iff_span : lines = [] ↔ span.start.line = span.stop.line ∧
    (d.text.toList.splitOn '\n')[span.start.line.toNat]? = some [] := by
  obtain ⟨⟨-, hline, -⟩, hle', hline', -⟩ := of_span? small hspan
  rw [h.eq_nil_iff hle', TouchesEmptyLine, hline, hline', UInt32.toNat_inj]

/-- The range stands in them at the column of its start. -/
theorem slice?_column :
    Text.slice? span.start.column.toNat (span.start.column.toNat + range.length) lines =
      Text.slice? range.start range.stop d.text.toList := by
  obtain ⟨⟨-, -, hcolumn⟩, -⟩ := of_span? small hspan
  have hlength : range.start + range.length = range.stop :=
    Nat.add_sub_cancel' range.start_le_stop
  rw [← h.front_eq] at hcolumn
  exact h.slice?_relative hcolumn (by rw [← Nat.add_assoc, hcolumn, hlength])

end TouchedLines

/-- On one line the columns are as far apart as the range is long. -/
theorem columns_of_span? (small : d.length < 2 ^ 32) (hspan : d.span? range = some span)
    (hsame : span.start.line = span.stop.line) :
    span.start.column.toNat + range.length = span.stop.column.toNat := by
  obtain ⟨⟨hle, hline, hcolumn⟩, hle', hline', hcolumn'⟩ := of_span? small hspan
  have hlines : d.lines.lineAt range.start = d.lines.lineAt range.stop := by
    rw [hline, hline', hsame]
  have hstarts := lineStart?_lineAt hle
  rw [hlines, lineStart?_lineAt hle', Option.some_inj] at hstarts
  have hlength : range.start + range.length = range.stop :=
    Nat.add_sub_cancel' range.start_le_stop
  omega

/-- **The preview of a range lines up with its span.** -/
theorem linesUp (small : d.length < 2 ^ 32) (within : range.stop ≤ d.length) :
    ∃ span text, d.span? range = some span ∧ d.LinesUp range span text ∧
      (Preview.lexical d range).text? d = if text = "" then none else some text := by
  obtain ⟨span, hspan⟩ := Option.isSome_iff_exists.mp (isSome_span?_iff.mpr within)
  obtain ⟨front, lines, back, htouched, htext⟩ := Preview.text?_lexical within
  have hempty : String.ofList lines = "" ↔ lines = [] := by simp
  refine ⟨span, String.ofList lines, hspan, ?_, by rw [htext, if_congr hempty rfl rfl]⟩
  constructor
  case lines => exact htouched.bounds small hspan
  case newlines =>
    rw [String.toList_ofList]
    exact htouched.count_newline small hspan
  case empty_iff => exact hempty.trans (htouched.eq_nil_iff_span small hspan)
  case part =>
    rw [String.toList_ofList, htouched.slice?_column small hspan]
    rfl
  case columns => exact columns_of_span? small hspan

end Document

/-! ## 3. Standard previews -/

variable {σ : Type}

/-- The preview of a token grammar host is the standard one. -/
theorem Host.of_lexicalPreview {signal : Signal} {s s' : Session σ} {preview : Preview}
    (h : lexicalPreview signal d range s = .ok preview s') : preview = .lexical d range := by
  obtain ⟨-, s₁, -, hpreview⟩ := Work.of_bind_ok h
  cases hpreview
  rfl

/-! ## 4. The main statement -/

/-- Where a reference is among the spans that a request is told of. -/
theorem Request.told_references (request : ReferenceRequest) (before after : List Report)
    (item : ReferenceItem) :
    (references request).told (before ++ .reference item :: after) =
      ((if request.includeDeclaration then (before ++ after).flatMap Report.definitionSpans
          else []) ++ before.flatMap Report.referenceSpans) ++
        (item.span, item.span.previewText?) :: after.flatMap Report.referenceSpans := by
  rw [told, List.flatMap_append, List.flatMap_append, List.flatMap_append, List.flatMap_cons,
    List.flatMap_cons, List.append_assoc]
  rfl

namespace RequestContext

/-- **What a rich client is shown of a reference.**  A reference that was made of a hit within its
document, with the standard preview, has a span, and a text that lines up with it.  Where the
reference is reported, the answer has a location with this span and this text, or without a text
if the text is empty. -/
theorem reference_lines_up {host : Host σ} (lexical : host.classify = Host.lexicalPreview)
    {signal : Signal} {hit : ReferenceHit} {definition : DefinitionItem} {includeHidden : Bool}
    {s s' : Session σ} {item : ReferenceItem}
    (made : host.referenceItem? signal hit definition includeHidden s = .ok (some item) s')
    {place : SourceLocation} (source : hit.location.source? = some place)
    (within : place.range.stop ≤ hit.document.length) (small : hit.document.length < 2 ^ 32) :
    ∃ span text, hit.document.span? place.range = some span ∧
      hit.document.LinesUp place.range span text ∧
      let shown : ClientLocation :=
        ⟨hit.document.uri, span, if text = "" then none else some text⟩
      ∀ (τ : Type) (context : RequestContext) (service : SearchService τ) (options : UsageOptions)
        (request : ReferenceRequest) (search : SearchRequest) (before after : List Report)
        (t t' : Session τ) (locations : List ClientLocation),
        context.client.richText = true →
        context.search? options (.references request) = some search →
        let run := service search t
        run.reports = before ++ .reference item :: after →
        let declared := if request.includeDeclaration then
          (before ++ after).flatMap Report.definitionSpans else []
        (context.answer service options (.references request) t = .ok locations t' ↔
          t.Calm .request ∧ run.outcome = .ok () ∧ run.session.Calm .request ∧
            context.located (declared ++ before.flatMap Report.referenceSpans) ++
              shown :: context.located (after.flatMap Report.referenceSpans) = locations ∧
            run.session = t') := by
  obtain ⟨place', preview, hplace, -, hpreview, hitem⟩ := Host.of_referenceItem? made
  cases source.symm.trans hplace
  rw [lexical] at hpreview
  obtain rfl := Host.of_lexicalPreview hpreview
  obtain ⟨span, text, hspan, hlines, htext⟩ := Document.linesUp small within
  refine ⟨span, text, hspan, hlines, ?_⟩
  intro shown τ context service options request search before after t t' locations hrich hsearch
    run hreports declared
  have hshown : context.location? item.span item.span.previewText? = some shown := by
    rw [location?, if_pos hrich, hitem, DocumentSpan.previewText?, Option.bind_some, htext,
      DocumentSpan.richLocation?, hspan, Option.map_some]
  have hlocated : context.located ((Request.references request).told run.reports) =
      context.located (declared ++ before.flatMap Report.referenceSpans) ++
        shown :: context.located (after.flatMap Report.referenceSpans) := by
    rw [hreports, Request.told_references, located_append]
    exact congrArg _ (List.filterMap_cons_some hshown)
  rw [answer_eq_ok_iff, hsearch]
  simp only [Option.some.injEq, exists_eq_left', hlocated, run]

/-- A hit over the end of a line, on two lines of four: the text has both lines whole, and the hit
stands in it from column 1 on. -/
theorem reference_lines_up_sample :
    let d : Document := ⟨⟨0⟩, "a.cs", "x\nab\né$\ncd", none⟩
    let range : TextRange := ⟨3, 7, by decide⟩
    let hit : ReferenceHit := { document := d, location := .inSource ⟨⟨0⟩, range, false⟩ }
    let definition : DefinitionItem := ⟨[], [], [], .unavailable [], {}, .empty, false⟩
    let host : Host Unit := .standard ⟨fun _ => none, fun _ s => s⟩
    let solution := Solution.empty.applyAll [.set d.path d.text d.project]
    ∃ item, host.referenceItem? .request hit definition false ⟨false, ()⟩ =
        .ok (some item) ⟨false, ()⟩ ∧
      (⟨solution, { richText := true }⟩ : RequestContext).answer
          (fun _ s => ⟨[.reference item], .ok (), s⟩ : SearchService Unit) {}
          (.references ⟨⟨⟨0⟩, ⟨0, 0⟩⟩, true⟩) ⟨false, ()⟩ =
        .ok [⟨"file:///a.cs", ⟨⟨1, 1⟩, ⟨2, 2⟩⟩, some "ab\né$"⟩] ⟨false, ()⟩ ∧
      d.LinesUp range ⟨⟨1, 1⟩, ⟨2, 2⟩⟩ "ab\né$" := by
  intro d range hit definition host solution
  have hd : solution.document? ⟨0⟩ = some d := Solution.document?_applyAll_set _ _ _ ⟨0⟩
  let context : RequestContext := ⟨solution, { richText := true }⟩
  let item : ReferenceItem :=
    ⟨definition, ⟨d, range, some (.lexical d range)⟩, .standard, .empty⟩
  have made : host.referenceItem? .request hit definition false ⟨false, ()⟩ =
      .ok (some item) ⟨false, ()⟩ := rfl
  have hsearch : context.search? {} (.references ⟨⟨⟨0⟩, ⟨0, 0⟩⟩, true⟩) =
      some ⟨.references, d, 0, {}⟩ :=
    (congrArg (Option.bind · _) hd).trans (by decide)
  obtain ⟨span, text, hspan, hlines, hanswer⟩ :=
    reference_lines_up rfl made rfl (by decide) (by decide)
  cases hspan.symm.trans (by decide : d.span? range = some ⟨⟨1, 1⟩, ⟨2, 2⟩⟩)
  obtain ⟨lines, last, hslice, hstart, hlast, hstop⟩ := hlines.lines
  have hend : d.lines.lineRange? 2 = some ⟨5, 8, by decide⟩ := by decide
  have hbegin : d.offset? ⟨1, 0⟩ = some 2 := by decide
  cases hlast.symm.trans hend
  have hbounds : TextRange.ofBounds? 2 8 = some lines :=
    TextRange.ofBounds?_eq_some_iff.mpr ⟨Option.some_inj.mp (hstart.symm.trans hbegin), hstop⟩
  cases hbounds
  have htouched : d.slice? ⟨2, 8, by decide⟩ = some "ab\né$" := by decide
  cases hslice.symm.trans htouched
  refine ⟨item, made, ?_, hlines⟩
  refine (hanswer Unit context _ {} _ _ [] [] _ _ _ rfl hsearch rfl).mpr
    ⟨rfl, rfl, rfl, ?_, rfl⟩
  decide

end RequestContext
end UsageReport
