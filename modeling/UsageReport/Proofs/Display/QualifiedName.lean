/-
# Qualified names, displays and documentation ids

Three texts are made of a symbol and the chain of its containers: the qualified name, the full
display and the documentation id.  They do not go along the chain in the same way.  The qualified
name and the display leave out containers without a name, and the id gives up at the first of them;
the display shows no container of a local, writes a dot behind each container it shows and the type
arguments in front of the dot, and has a constructor's name from its type.

For a symbol that has an id and is no constructor the differences are gone, except for the type
arguments.  All of its containers have names, so the path of the id is the qualified name
(`path_eq_qualifiedName`), and without type arguments so is what the display has between the keyword
and the parentheses (`join_full`).  Dots behind all parts but the last are dots between the parts
(`join_dotted`).
-/
import UsageReport.Display.QualifiedName
import UsageReport.Proofs.Display.DocumentationId

namespace UsageReport

/-! ## 1. Dots -/

/-- Parts with a dot behind each, and a last part, are the parts with dots between them. -/
theorem join_dotted (parts : List String) (last : String) :
    String.join (parts.map (· ++ ".")) ++ last = ".".intercalate (parts ++ [last]) := by
  induction parts with
  | nil => simp
  | cons part rest ih =>
    rw [List.map_cons, String.join_cons, List.cons_append,
      String.intercalate_cons_of_ne_nil (by simp), String.append_assoc, ih]

namespace Symbol

/-- The qualified name is the name behind the names of the containers, if there are any. -/
theorem qualifiedName_eq (s : Symbol) :
    s.qualifiedName = if s.containerPath = [] then s.name
      else ".".intercalate s.containerPath ++ "." ++ s.name := by
  rw [qualifiedName]
  split
  · rename_i hnone
    rw [hnone, List.nil_append, String.intercalate_singleton]
  · rename_i hsome
    rw [String.intercalate_append_of_ne_nil hsome (by simp), String.intercalate_singleton]

end Symbol

/-! ## 2. The documentation id -/

namespace DocumentationId

/-- No container of a nameable symbol is left out of its qualified name. -/
theorem Nameable.containerPath_eq {s : Symbol} (h : Nameable s) :
    s.containerPath = outerNames s := by
  have hall : s.containers.filter (!·.name.isEmpty) = s.containers :=
    List.filter_eq_self.mpr fun c hc => by
      rw [String.isEmpty_eq_false_iff.mpr (h.containers c hc).1]
      rfl
  rw [Symbol.containerPath, hall]
  rfl

/-- **The path of an id is the qualified name**, except for constructors. -/
theorem Nameable.path_eq_qualifiedName {s : Symbol} (h : Nameable s)
    (hkind : s.kind.isConstructor = false) : path s = s.qualifiedName := by
  rw [path, segment_of_not_constructor hkind, ← h.containerPath_eq]
  rfl

end DocumentationId

/-! ## 3. The full display -/

namespace Display

variable {s : Symbol}

theorem typeArguments_of_nil (h : s.typeArguments = []) : typeArguments s = [] := by
  rw [typeArguments, h]

theorem join_keyword (s : Symbol) :
    TaggedText.join (keyword s) = s.kind.keyword?.elim "" (· ++ " ") := by
  rw [keyword]
  cases s.kind.keyword? with
  | some word =>
    rw [TaggedText.join_cons, TaggedText.join_cons, TaggedText.join_nil, String.append_empty]
    rfl
  | none => rfl

/-- Only a constructor is shown by another name than its own. -/
theorem join_name (hkind : s.kind.isConstructor = false) (harguments : s.typeArguments = []) :
    TaggedText.join (name s) = s.name ++ if s.kind.isMethod then "()" else "" := by
  have hshown : shownName s = ⟨.ofKind s.kind, s.name⟩ := by
    rw [shownName, hkind]
  rw [name, hshown, typeArguments_of_nil harguments, List.singleton_append, TaggedText.join_cons]
  cases s.kind.isMethod <;> rfl

theorem join_qualifier (harguments : s.typeArguments = []) :
    TaggedText.join (qualifier s) = s.name ++ "." := by
  rw [qualifier, typeArguments_of_nil harguments, List.singleton_append, TaggedText.join_cons,
    TaggedText.join_cons, TaggedText.join_nil, String.append_empty]
  rfl

/-- A row of containers is their names with dots behind them. -/
theorem join_flatMap_qualifier {containers : List Symbol}
    (harguments : ∀ c ∈ containers, c.typeArguments = []) :
    TaggedText.join (containers.flatMap qualifier) =
      String.join ((containers.map Symbol.name).map (· ++ ".")) := by
  induction containers with
  | nil => rfl
  | cons c rest ih =>
    rw [List.flatMap_cons, TaggedText.join_append, join_qualifier (harguments c List.mem_cons_self),
      ih fun d hd => harguments d (List.mem_cons_of_mem _ hd), List.map_cons, List.map_cons,
      String.join_cons]

/-- **The text of the full display**, of what is neither local nor a constructor and has no type
arguments. -/
theorem join_full (hlocal : s.kind.isLocal = false) (hkind : s.kind.isConstructor = false)
    (harguments : ∀ x ∈ s :: s.containers, x.typeArguments = []) :
    TaggedText.join (full s) =
      s.kind.keyword?.elim "" (· ++ " ") ++ s.qualifiedName ++
        if s.kind.isMethod then "()" else "" := by
  have hqualifiers : TaggedText.join (qualifiers s) =
      String.join (s.containerPath.map (· ++ ".")) := by
    rw [qualifiers, hlocal, if_neg Bool.false_ne_true, join_flatMap_qualifier, List.map_reverse]
    · rfl
    · intro c hc
      have hmem : c ∈ s.containers := (List.mem_filter.mp (List.mem_reverse.mp hc)).1
      exact harguments c (List.mem_cons_of_mem _ hmem)
  have hqualified : String.join (s.containerPath.map (· ++ ".")) ++ s.name = s.qualifiedName :=
    join_dotted s.containerPath s.name
  rw [full, TaggedText.join_append, TaggedText.join_append, join_keyword, hqualifiers,
    join_name hkind (harguments s List.mem_cons_self), ← hqualified]
  simp only [String.append_assoc]

end Display

/-! ## 4. The main statement -/

open DocumentationId in
/-- **Three texts of one chain.**  The qualified name is the name behind the names of the
containers, with dots.  For a symbol that has a documentation id and is no constructor, the id is
the letter of its kind, a colon and the qualified name.  If moreover neither the symbol nor a
container has type arguments, the full display reads as the keyword of the kind and a blank, if
there is one, the qualified name, and parentheses for a method.

A symbol has an id if and only if it is not local and no tuple element, has a name or is a
constructor, and each of its containers has a name and is not local. -/
theorem qualifiedName_in_display_and_id (s : Symbol) :
    (∀ id, s.kind.isConstructor = false → ofSymbol? s = some id →
      (∃ letter : Char, letter? s.kind = some (String.singleton letter) ∧
        id = String.singleton letter ++ ":" ++ s.qualifiedName) ∧
      ((∀ x ∈ s :: s.containers, x.typeArguments = []) →
        TaggedText.join (Display.full s) =
          s.kind.keyword?.elim "" (· ++ " ") ++ s.qualifiedName ++
            if s.kind.isMethod then "()" else "")) ∧
    (s.qualifiedName = if s.containerPath = [] then s.name
      else ".".intercalate s.containerPath ++ "." ++ s.name) ∧
    ((ofSymbol? s).isSome ↔ s.kind.isLocal = false ∧ s.kind.isTupleElement = false ∧
      (s.kind.isConstructor = false → s.name ≠ "") ∧
      ∀ c ∈ s.containers, c.name ≠ "" ∧ c.kind.isLocal = false) := by
  refine ⟨fun id hkind h => ?_, s.qualifiedName_eq, ?_⟩
  · have hs : Nameable s := nameable_of_ofSymbol? h
    obtain ⟨letter, hletter⟩ := exists_letter?_iff.mpr hs.notLocal
    refine ⟨⟨letter, hletter, ?_⟩, Display.join_full hs.notLocal hkind⟩
    rw [hs.ofSymbol?_eq, hletter, hs.path_eq_qualifiedName hkind] at h
    exact (Option.some_inj.mp h).symm
  · rw [isSome_ofSymbol?_iff]
    exact ⟨fun hs => ⟨hs.notLocal, hs.notElement, hs.named, hs.containers⟩,
      fun ⟨hlocal, helement, hnamed, hcontainers⟩ => ⟨hlocal, helement, hnamed, hcontainers⟩⟩

open DocumentationId in
/-- A method of a class in a namespace, and the class. -/
theorem qualifiedName_in_display_and_id_sample :
    let app : Symbol := .new 0 "App" .namespace
    let widget : Symbol :=
      { Symbol.new 1 "Widget" (.type .classType) with container := some app }
    let run : Symbol :=
      { Symbol.new 2 "Run" (.method .ordinary) with container := some widget }
    (ofSymbol? run = some "M:App.Widget.Run" ∧ run.qualifiedName = "App.Widget.Run" ∧
      TaggedText.join (Display.full run) = "App.Widget.Run()") ∧
    ofSymbol? widget = some "T:App.Widget" ∧
      TaggedText.join (Display.full widget) = "class App.Widget" := by
  intro app widget run
  have hrun : ofSymbol? run = some "M:App.Widget.Run" := by decide
  have hwidget : ofSymbol? widget = some "T:App.Widget" := by decide
  obtain ⟨hnamed, hqualified, -⟩ := qualifiedName_in_display_and_id run
  obtain ⟨-, hmethod⟩ := hnamed _ rfl hrun
  obtain ⟨-, hclass⟩ := (qualifiedName_in_display_and_id widget).1 _ rfl hwidget
  refine ⟨⟨hrun, ?_, ?_⟩, hwidget, ?_⟩
  · rw [hqualified]
    decide
  · rw [hmethod (by decide)]
    decide
  · rw [hclass (by decide)]
    decide

end UsageReport
