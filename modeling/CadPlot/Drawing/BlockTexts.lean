import Mathlib.Data.List.Sort
import Mathlib.Data.String.Basic
import CadPlot.Lib.Dict
import CadPlot.Publish.Profiles

/-!
# Texts of nested block definitions

`_block_definition_texts` collects the texts of a block definition and of the
definitions nested in it, and remembers the answers of a drawing by the names
of the references it was asked for.
-/

namespace CadPlot.Drawing

open Publish (fold stripped)

def maxBlockDefinitionDepth : Nat := 8

def maxBlockDefinitionEntities : Nat := 1000

def maxBlockDefinitionTexts : Nat := 100

/-- A block reference, with what its two methods for attributes return when they can be called. -/
structure BlockReference where
  name : String
  effectiveName : String
  attributes : Option (List String)
  constantAttributes : Option (List String)
  deriving DecidableEq

def BlockReference.attributeValues (reference : BlockReference) : List String :=
  reference.attributes.getD [] ++ reference.constantAttributes.getD []

/-- An entity of a block definition: a text or an attribute definition, a nested reference, or
neither. -/
inductive BlockEntity where
  | text (value : String)
  | reference (value : BlockReference)
  | other
  deriving DecidableEq

/-- A block definition; its enumeration may fail at once or after some of its entities. -/
structure BlockDefinition where
  name : Option String
  isXRef : Bool
  isLayout : Bool
  entities : Option (List BlockEntity)
  broken : Bool
  deriving DecidableEq

def resolvedName (definition : BlockDefinition) (candidate : String) : String :=
  if definition.name.getD candidate = "" then candidate else definition.name.getD candidate

/-- The block table of a drawing: which definition `Item` finds by a name, if any. -/
structure BlockTable where
  callable : Bool
  item : String → Option BlockDefinition

structure Scan where
  texts : List String
  visited : List (List Char)
  active : List (List Char)
  reasons : List String
  entityCount : Nat

def Scan.start : Scan := ⟨[], [], [], [], 0⟩

def Scan.addReason (scan : Scan) (reason : String) : Scan :=
  { scan with reasons := scan.reasons.insert reason }

def Scan.addText (scan : Scan) (value : String) : Scan :=
  if maxBlockDefinitionTexts ≤ scan.texts.length then scan.addReason "text limit exceeded"
  else if stripped value = "" then scan
  else { scan with texts := scan.texts ++ [stripped value] }

/-- `_block_attribute_texts` -/
def blockAttributeTexts (reference : BlockReference) : List String :=
  (reference.attributeValues.map stripped).filter (· ≠ "")

structure Answer where
  texts : List String
  complete : Bool
  reason : Option String
  deriving DecidableEq

section Search

variable (casefold : Char → List Char)

/-- `_block_definition_names` -/
def blockDefinitionNames (reference : BlockReference) : List String :=
  ([reference.name, reference.effectiveName].map stripped).foldl (fun values value =>
    if value ≠ "" && !(values.map (fold casefold)).contains (fold casefold value) then
      values ++ [value]
    else values) []

/-- What the loop does with one child. -/
def visitChild (visit : List String → Scan → Scan) (child : BlockEntity) (scan : Scan) : Scan :=
  match child with
  | .text value => scan.addText value
  | .reference reference =>
    visit (blockDefinitionNames casefold reference)
      ((blockAttributeTexts reference).foldl Scan.addText scan)
  | .other => scan

/-- The loop over the children of a definition, and whether it came to their end. -/
def visitChildren (visit : List String → Scan → Scan) : List BlockEntity → Scan → Scan × Bool
  | [], scan => (scan, true)
  | child :: rest, scan =>
    let scan := { scan with entityCount := scan.entityCount + 1 }
    if maxBlockDefinitionEntities < scan.entityCount then
      (scan.addReason "entity limit exceeded", false)
    else
      let scan := visitChild casefold visit child scan
      if maxBlockDefinitionTexts ≤ scan.texts.length then
        (scan.addReason "text limit exceeded", false)
      else visitChildren visit rest scan

variable (table : BlockTable)

/-- `get_definition`, which takes the first of the names that the table knows. -/
def BlockTable.definition (names : List String) : Option (BlockDefinition × String) :=
  if table.callable then
    names.findSome? fun candidate =>
      (table.item candidate).map fun definition => (definition, resolvedName definition candidate)
  else none

/-- `visit`, by how many levels it may still go down -/
def visit : Nat → List String → Scan → Scan
  | 0, _, scan => scan.addReason "depth limit exceeded"
  | levels + 1, names, scan =>
    match table.definition names with
    | none =>
      scan.addReason (if table.callable then "block definition is unavailable"
        else "Blocks.Item is unavailable")
    | some (definition, resolved) =>
      let key := fold casefold resolved
      if scan.active.contains key then scan.addReason "cyclic block definition"
      else if scan.visited.contains key then scan
      else if definition.isXRef then scan.addReason "xref definition is not inspected"
      else if definition.isLayout then scan.addReason "layout definition is not inspected"
      else
        match definition.entities with
        | none => scan.addReason "block definition enumeration failed"
        | some children =>
          let (scan, finished) :=
            visitChildren casefold (visit levels) children
              { scan with active := key :: scan.active }
          let scan :=
            if finished = false then scan
            else if definition.broken then scan.addReason "block definition enumeration failed"
            else { scan with visited := key :: scan.visited }
          { scan with active := scan.active.erase key }

def cacheKey (reference : BlockReference) : List Char :=
  ['|'].intercalate ((blockDefinitionNames casefold reference).map (fold casefold))

def Scan.answer (scan : Scan) : Answer :=
  ⟨scan.texts, decide (scan.reasons = []),
    if scan.reasons = [] then none
    else some (String.intercalate ", " (scan.reasons.insertionSort (· ≤ ·)))⟩

/-- The answer for names that are not in the cache. -/
def searchTexts (names : List String) : Answer :=
  (visit casefold table (maxBlockDefinitionDepth + 1) names .start).answer

abbrev Cache := Dict (List Char) Answer

def unavailable : Answer := ⟨[], false, some "block definition name is unavailable"⟩

def blockDefinitionTexts (reference : BlockReference) (cache : Cache) : Answer × Cache :=
  let key := cacheKey casefold reference
  if key = [] then (unavailable, cache)
  else
    match cache.get key with
    | some answer => (answer, cache)
    | none =>
      let answer := searchTexts casefold table (blockDefinitionNames casefold reference)
      (answer, cache.set key answer)

/-- The answers to queries that share a cache. -/
def answers : List BlockReference → Cache → List Answer
  | [], _ => []
  | query :: rest, cache =>
    (blockDefinitionTexts casefold table query cache).1 ::
      answers rest (blockDefinitionTexts casefold table query cache).2

/-- The answer with a cache of its own. -/
def freshAnswer (query : BlockReference) : Answer :=
  (blockDefinitionTexts casefold table query .empty).1

end Search

end CadPlot.Drawing
