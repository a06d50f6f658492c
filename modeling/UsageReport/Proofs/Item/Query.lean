/-
# What an item owes to its query

A query has four parts.  Two of them are looked at while locations are read: whether hidden
locations are kept, and whether spans get previews.  The other two are looked at when the item is
put together, and nowhere else.  Whether the definition is what the search was about becomes the
mark of the item (`definitionItem_withPrimary`), and the options go to the policy
(`definitionItem_withOptions`).  Both are equations between pieces of work: they hold wherever the
work begins and however it ends.

Previews change the spans of an item and nothing else about it
(`definitionItem_without_previews_of_ok`), and where none are wanted the classifier is not called
(`maintains_calls_without_previews`).  The main statement puts this together
(`previews_change_spans_only`).

There are two usual ways to ask for an item without previews, and they do not ask with the same
options.  Their items are the same but for the answer of the policy to these options
(`uninterruptedDefinition_agrees`).  A policy that looks at the one option in which they differ
makes them differ (`uninterruptedDefinition_differs`).
-/
import UsageReport.Proofs.Item.Classification

namespace UsageReport

namespace DefinitionItem

/-- The item without the previews of its spans. -/
def withoutPreviews (item : DefinitionItem) : DefinitionItem :=
  { item with navigation := item.navigation.withoutPreviews }

/-- The item with another mark. -/
def withPrimary (item : DefinitionItem) (primary : Bool) : DefinitionItem :=
  { item with properties := { item.properties with primary } }

/-- The item with another answer of the policy. -/
def withShown (item : DefinitionItem) (shownUnreferenced : Bool) : DefinitionItem :=
  { item with shownUnreferenced }

/-- Nothing but the answer tells the two items apart. -/
theorem eq_withShown_iff {item : DefinitionItem} {answer : Bool} :
    item = item.withShown answer ↔ item.shownUnreferenced = answer := by
  refine ⟨congrArg shownUnreferenced, ?_⟩
  rintro rfl
  rfl

end DefinitionItem

namespace Host

variable {σ : Type} {host : Host σ} {signal : Signal} {query : DefinitionQuery} {symbol : Symbol}
  {locations : List Location} {s t : Session σ}

/-! ## 1. The mark and the options -/

theorem assemble_withPrimary (query : DefinitionQuery) (primary : Bool) (definition : Symbol)
    (w : Whereabouts) :
    host.assemble { query with primary } definition w =
      (host.assemble query definition w).withPrimary primary := by
  cases w with
  | metadata moduleName => rfl
  | source spans => cases spans <;> rfl

/-- Two queries with one mark have the same item but for the answer of the policy. -/
theorem assemble_withOptions (query query' : DefinitionQuery) (h : query'.primary = query.primary)
    (definition : Symbol) (w : Whereabouts) :
    host.assemble query' definition w =
      (host.assemble query definition w).withShown
        (host.showsUnreferenced definition query'.options false) := by
  cases w with
  | metadata moduleName =>
    rw [assemble, assemble, h]
    rfl
  | source spans =>
    cases spans <;>
    · rw [assemble, assemble, h]
      rfl

/-- Reading looks neither at the mark nor at the options. -/
theorem locate_congr_query {query' : DefinitionQuery}
    (hhidden : query'.includeHidden = query.includeHidden)
    (hprev : query'.previews = query.previews) (locations : List Location) :
    host.locate signal query' locations = host.locate signal query locations := by
  induction locations using location_induction host query.includeHidden with
  | nil => rfl
  | metadata moduleName rest => rfl
  | skipped l rest hm hp ih =>
    funext s
    rw [locate_skipped hm hp, ← ih, ← hhidden]
    exact locate_skipped hm (hhidden ▸ hp)
  | place l rest span hp ih =>
    funext s
    rw [locate_place hp, ← ih, ← hhidden, ← hprev]
    exact locate_place (hhidden ▸ hp)

/-- If two queries read alike, what makes the assembled item of the one into that of the other
does so for their work. -/
theorem definitionItem_map (query query' : DefinitionQuery)
    (hhidden : query'.includeHidden = query.includeHidden)
    (hprev : query'.previews = query.previews) {f : DefinitionItem → DefinitionItem}
    (hassemble : ∀ w, host.assemble query' symbol.canonical w =
      f (host.assemble query symbol.canonical w)) (locations : List Location) :
    host.definitionItem signal query' symbol locations =
      f <$> host.definitionItem signal query symbol locations := by
  have hrest (x : Work σ Whereabouts) :
      (do return host.assemble query' symbol.canonical (← x)) =
        f <$> (do return host.assemble query symbol.canonical (← x) : Work σ DefinitionItem) := by
    rw [map_bind]
    refine bind_congr fun w => ?_
    rw [map_pure, hassemble]
  rw [definitionItem, definitionItem, map_bind]
  refine bind_congr fun _ => ?_
  dsimp only
  rw [locate_congr_query hhidden hprev]
  split
  · exact hrest _
  · exact hrest _

/-- **The mark of a query reaches the mark of the item only.** -/
theorem definitionItem_withPrimary (query : DefinitionQuery) (primary : Bool) (symbol : Symbol)
    (locations : List Location) :
    host.definitionItem signal { query with primary } symbol locations =
      (·.withPrimary primary) <$> host.definitionItem signal query symbol locations :=
  definitionItem_map query { query with primary } rfl rfl (assemble_withPrimary query primary _)
    locations

/-- **The options of a query reach the policy only**, which is asked about the canonical symbol. -/
theorem definitionItem_withOptions (query : DefinitionQuery) (options : SearchOptions)
    (symbol : Symbol) (locations : List Location) :
    host.definitionItem signal { query with options } symbol locations =
      (·.withShown (host.showsUnreferenced symbol.canonical options false)) <$>
        host.definitionItem signal query symbol locations :=
  definitionItem_map query { query with options } rfl rfl
    (assemble_withOptions query { query with options } rfl _) locations

/-! ## 2. Items without previews -/

/-- Taking the previews off an item is putting it together from whereabouts without previews. -/
theorem withoutPreviews_assemble (query : DefinitionQuery) (definition : Symbol)
    (w : Whereabouts) :
    (host.assemble query definition w).withoutPreviews =
      host.assemble query definition w.withoutPreviews := by
  cases w with
  | metadata moduleName => rfl
  | source spans => cases spans <;> rfl

/-- **An item with its previews taken off is the item without previews**, but for the answer of
the policy if the options are others. -/
theorem definitionItem_without_previews_of_ok {primary includeHidden : Bool}
    {options : SearchOptions} {signal' : Signal} {item : DefinitionItem} {s' : Session σ}
    (h : host.definitionItem signal ⟨primary, includeHidden, true, options⟩ symbol locations s =
      .ok item s') (options' : SearchOptions) (ht : t.Calm signal') :
    ∃ t', host.definitionItem signal' ⟨primary, includeHidden, false, options'⟩ symbol locations t =
      .ok (item.withoutPreviews.withShown
        (host.showsUnreferenced symbol.canonical options' false)) t' := by
  obtain ⟨w, rfl, hw⟩ := exists_assemble_of_ok h
  obtain ⟨t', hplain⟩ := definitionItem_of_no_previews host
    ⟨primary, includeHidden, false, options'⟩ rfl symbol locations ht
  refine ⟨t', hplain.trans ?_⟩
  rw [withoutPreviews_assemble, hw]
  exact congrArg (EStateM.Result.ok · t')
    (assemble_withOptions ⟨primary, includeHidden, true, options⟩
      ⟨primary, includeHidden, false, options'⟩ rfl _ _)

/-! ## 3. The classifier is not called -/

/-- Without previews, locations are read the same whatever the classifier does. -/
theorem locate_of_no_previews (hprev : query.previews = false)
    (classify : Signal → Document → TextRange → Work σ Preview) (locations : List Location) :
    ({ host with classify } : Host σ).locate signal query locations =
      host.locate signal query locations := by
  induction locations using location_induction host query.includeHidden with
  | nil => rfl
  | metadata moduleName rest => rfl
  | skipped l rest hm hp ih =>
    funext s
    have hp' : ({ host with classify } : Host σ).place? query.includeHidden l = none := hp
    rw [locate_skipped hm hp, ← ih]
    exact locate_skipped hm hp'
  | place l rest span hp ih =>
    funext s
    have hp' : ({ host with classify } : Host σ).place? query.includeHidden l = some span := hp
    rw [locate_place hp, locate_place hp', ← ih, hprev, span_without_previews,
      span_without_previews]
    rfl

/-- Nor does the item without previews depend on it. -/
theorem definitionItem_of_no_previews_congr (hprev : query.previews = false)
    (classify : Signal → Document → TextRange → Work σ Preview) (symbol : Symbol)
    (locations : List Location) :
    ({ host with classify } : Host σ).definitionItem signal query symbol locations =
      host.definitionItem signal query symbol locations := by
  rw [definitionItem, definitionItem, locate_of_no_previews hprev]
  rfl

/-- **Without previews the classifier is not called.**  The item is also that of a host whose
classifier writes nothing down, so the record stays as it was. -/
theorem maintains_calls_without_previews (hprev : query.previews = false) (symbol : Symbol)
    (locations : List Location) (calls : List DocumentSpan) :
    (host.recorded.definitionItem signal query symbol locations).Maintains
      fun s => s.services.2 = calls := by
  have keeps : ({ host.recorded with classify := fun _ _ _ => throw .cancelled } :
      Host (σ × List DocumentSpan)).Maintains signal fun s => s.services.2 = calls :=
    { find := fun _ _ h => h
      classify := fun _ _ _ h => h }
  rw [← definitionItem_of_no_previews_congr hprev fun _ _ _ => throw .cancelled]
  exact keeps.definitionItem query symbol locations

/-! ## 4. With previews and without -/

/-- **Previews change the spans of an item and nothing else.**  If nothing disturbs the work, the
item with previews is made, and with its previews taken off it is the item without previews, which
is made in every session whose signal is down.  Each of the two has the policy's answer about the
canonical symbol for the options that it was asked for with; so options reach nothing else, and
whether the definition is what the search was about reaches the mark only, however the work ends.
The work without previews never calls the classifier: done on a host with a record of these calls,
it is the same work and leaves the record as it was. -/
theorem previews_change_spans_only (raised : host.Maintains signal (Session.Raised signal))
    (answers : host.Answers signal) (symbol : Symbol) (locations : List Location)
    (includeHidden : Bool) :
    (∀ primary options options' (s t : Session σ),
      ((host.definitionItem signal ⟨primary, includeHidden, true, options⟩ symbol
        locations).finalSession s).Calm signal → t.Calm signal →
      ∃ item s' t',
        host.definitionItem signal ⟨primary, includeHidden, true, options⟩ symbol locations s =
          .ok item s' ∧
        item.shownUnreferenced = host.showsUnreferenced symbol.canonical options false ∧
        host.definitionItem signal ⟨primary, includeHidden, false, options'⟩ symbol locations t =
          .ok (item.withoutPreviews.withShown
            (host.showsUnreferenced symbol.canonical options' false)) t') ∧
    (∀ primary previews options options',
      host.definitionItem signal ⟨primary, includeHidden, previews, options'⟩ symbol locations =
        (·.withShown (host.showsUnreferenced symbol.canonical options' false)) <$>
          host.definitionItem signal ⟨primary, includeHidden, previews, options⟩ symbol
            locations) ∧
    (∀ primary primary' previews options,
      host.definitionItem signal ⟨primary', includeHidden, previews, options⟩ symbol locations =
        (·.withPrimary primary') <$>
          host.definitionItem signal ⟨primary, includeHidden, previews, options⟩ symbol
            locations) ∧
    ∀ primary options,
      (host.recorded.definitionItem signal ⟨primary, includeHidden, false, options⟩ symbol
        locations).Mirrors
          (host.definitionItem signal ⟨primary, includeHidden, false, options⟩ symbol
            locations) ∧
      ∀ calls, (host.recorded.definitionItem signal ⟨primary, includeHidden, false, options⟩ symbol
        locations).Maintains fun s => s.services.2 = calls := by
  refine ⟨?_, ?_, ?_, ?_⟩
  · intro primary options options' s t hcalm ht
    obtain ⟨item, s', hitem⟩ := exists_ok_of_calm raised answers hcalm
    obtain ⟨t', hplain⟩ := definitionItem_without_previews_of_ok hitem options' ht
    obtain ⟨w, hw, -⟩ := exists_assemble_of_ok hitem
    exact ⟨item, s', t', hitem, hw ▸ shownUnreferenced_assemble _ _ w, hplain⟩
  · intro primary previews options options'
    exact definitionItem_withOptions ⟨primary, includeHidden, previews, options⟩ options' _ _
  · intro primary primary' previews options
    exact definitionItem_withPrimary ⟨primary, includeHidden, previews, options⟩ primary' _ _
  · intro primary options
    exact ⟨mirrors_definitionItem symbol locations,
      maintains_calls_without_previews rfl symbol locations⟩

/-- The class of the sample, as the primary definition and under options that show every
definition: with previews and without, it leads to its two visible declarations. -/
theorem previews_change_spans_only_sample :
    let host : Host Unit := standard (.ofDocument sampleDocument)
    let place : DocumentSpan := ⟨sampleDocument, ⟨6, 12, by decide⟩, none⟩
    ∃ (item : DefinitionItem) (s' t' : Session Unit),
      host.definitionItem .request ⟨true, false, true, { displayAll := true }⟩ sampleSymbol
        sampleLocations ⟨false, ()⟩ = .ok item s' ∧
      item.shownUnreferenced = true ∧
      item.withoutPreviews.navigation = .source [place, place] ∧
      host.definitionItem .request ⟨true, false, false, {}⟩ sampleSymbol sampleLocations
        ⟨false, ()⟩ = .ok (item.withoutPreviews.withShown true) t' := by
  intro host place
  have keeps (P : Session Unit → Prop) :=
    standard_maintains (P := P) (DocumentSource.maintains_find_ofDocument sampleDocument) .request
  obtain ⟨hitem, -⟩ := previews_change_spans_only (keeps _)
    (standard_answers (.ofDocument sampleDocument) _) sampleSymbol sampleLocations false
  obtain ⟨item, s', t', hok, hshown, hplain⟩ :=
    hitem true { displayAll := true } {} ⟨false, ()⟩ ⟨false, ()⟩
      ((keeps (Session.Calm .request)).definitionItem _ _ _ _ rfl) rfl
  refine ⟨item, s', t', hok, hshown, ?_, hplain⟩
  cases hok
  rfl

/-! ## 5. The two ways to ask for an item without previews -/

/-- **The way that cannot be interrupted makes the same item** as the way that can, if its signal is
down at the start, but for one field.  This is the answer of the policy about the canonical symbol:
it is asked with the default options in the one case, and in the other with these options and the
cascade going one way.  So the items are equal just if the policy answers both alike, and the
standard policy always does. -/
theorem uninterruptedDefinition_agrees (host : Host σ) (signal : Signal) (symbol : Symbol)
    (includeHidden : Bool) (s t : Session σ) (ht : t.Calm signal) :
    ∃ item item' s' t',
      host.uninterruptedDefinition symbol includeHidden s = .ok item s' ∧
      host.unclassifiedDefinition signal symbol includeHidden t = .ok item' t' ∧
      item.shownUnreferenced = host.showsUnreferenced symbol.canonical {} false ∧
      item' = item.withShown
        (host.showsUnreferenced symbol.canonical { unidirectional := true } false) ∧
      (item = item' ↔ host.showsUnreferenced symbol.canonical {} false =
        host.showsUnreferenced symbol.canonical { unidirectional := true } false) ∧
      (host.showsUnreferenced = standardPolicy → item = item') := by
  have hs : s.Calm .never := rfl
  obtain ⟨s', hitem⟩ := definitionItem_of_no_previews host ⟨false, includeHidden, false, {}⟩ rfl
    symbol symbol.locations hs
  obtain ⟨t', hitem'⟩ := definitionItem_of_no_previews host
    ⟨false, includeHidden, false, { unidirectional := true }⟩ rfl symbol symbol.locations ht
  rw [assemble_withOptions ⟨false, includeHidden, false, {}⟩
    ⟨false, includeHidden, false, { unidirectional := true }⟩ rfl] at hitem'
  refine ⟨_, _, s', t', hitem, hitem', shownUnreferenced_assemble _ _ _, rfl, ?_, fun policy => ?_⟩
  · rw [DefinitionItem.eq_withShown_iff, shownUnreferenced_assemble]
  · rw [DefinitionItem.eq_withShown_iff, shownUnreferenced_assemble, policy]
    rfl

/-- The sample class with its locations. -/
def placedSymbol : Symbol := { sampleSymbol with locations := sampleLocations }

/-- Under the standard policy both ways make the item of the class that leads to its two visible
declarations. -/
theorem uninterruptedDefinition_agrees_sample :
    let host : Host Unit := standard (.ofDocument sampleDocument)
    let place : DocumentSpan := ⟨sampleDocument, ⟨6, 12, by decide⟩, none⟩
    ∃ (item : DefinitionItem) (s' t' : Session Unit),
      host.uninterruptedDefinition placedSymbol false ⟨false, ()⟩ = .ok item s' ∧
      host.unclassifiedDefinition .request placedSymbol false ⟨false, ()⟩ = .ok item t' ∧
      item.navigation = .source [place, place] := by
  intro host place
  obtain ⟨item, item', s', t', hitem, hitem', -, -, -, hequal⟩ :=
    uninterruptedDefinition_agrees host .request placedSymbol false ⟨false, ()⟩ ⟨false, ()⟩ rfl
  obtain rfl : item = item' := hequal rfl
  refine ⟨item, s', t', hitem, hitem', ?_⟩
  cases hitem
  rfl

/-- Standard services over one document, except that definitions without references are shown just
if the cascade goes one way. -/
def oneWay : Host Unit :=
  { standard (.ofDocument sampleDocument) with
    showsUnreferenced := fun _ options _ => options.unidirectional }

/-- **The two items can differ.**  Only one of them is asked for with the cascade going one way, and
this policy shows only that one without references. -/
theorem uninterruptedDefinition_differs :
    ∃ (item item' : DefinitionItem) (s' t' : Session Unit),
      oneWay.uninterruptedDefinition placedSymbol false ⟨false, ()⟩ = .ok item s' ∧
      oneWay.unclassifiedDefinition .request placedSymbol false ⟨false, ()⟩ = .ok item' t' ∧
      item.shownUnreferenced = false ∧ item'.shownUnreferenced = true ∧ item ≠ item' := by
  refine ⟨_, _, _, _, rfl, rfl, rfl, rfl, fun hequal => ?_⟩
  cases congrArg DefinitionItem.shownUnreferenced hequal

end Host
end UsageReport
