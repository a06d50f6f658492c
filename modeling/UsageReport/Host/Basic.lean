/-
# Hosts

The platform around the library supplies services: it finds documents, classifies text,
displays and names symbols, decides what is shown, and contributes properties and items of its
own.  A `Host` bundles one of each.

Documents come from a snapshot, so the answer of a lookup depends on the id alone.  But a
lookup happens within the session: the host may count it, or notice at that moment that the
request was cancelled.  Classification and contributed items depend on the session as a whole,
and can fail.  All other services are functions of their arguments.
-/
import UsageReport.Display.Glyph
import UsageReport.Item.Definition
import UsageReport.Options
import UsageReport.Session

namespace UsageReport

/-- Where documents are found. -/
structure DocumentSource (σ : Type) where
  /-- The document with an id, if it is loaded. -/
  document? : FileId → Option Document
  /-- What a lookup does to the session. -/
  touch : FileId → Session σ → Session σ

/-- Look a document up. -/
def DocumentSource.find {σ : Type} (source : DocumentSource σ) (file : FileId) :
    Work σ (Option Document) := fun s => .ok (source.document? file) (source.touch file s)

/-- One service of each kind. -/
structure Host (σ : Type) where
  documents : DocumentSource σ
  /-- The preview of a range of a document. -/
  classify : Signal → Document → TextRange → Work σ Preview
  /-- The full display of a symbol. -/
  display : Symbol → List TaggedText
  /-- The display of a symbol within its type. -/
  nameDisplay : Symbol → List TaggedText
  glyph : Symbol → Glyph
  /-- The name under which other tools know a symbol. -/
  crossReference? : Symbol → Option String
  /-- Whether a definition is shown when nothing refers to it.  The last argument says whether
  symbols of compiled modules are. -/
  showsUnreferenced : Symbol → SearchOptions → Bool → Bool
  /-- Properties to display with a definition. -/
  properties : Symbol → PropertyMap
  /-- An item to show next to another one. -/
  linked? : DocumentSource σ → Signal → DefinitionItem → Work σ (Option DefinitionItem)

end UsageReport
