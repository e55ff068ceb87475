import NodeFleet.Error
import NodeFleet.NodeClass.Basic

/-!
# Selection by terms

Terms are alternatives. A term picks the first candidate with its identifier; failing that, the
first with its name; failing that, every candidate that has its operating system and its tags. A
term without any of these picks nothing. The picks are joined in order, the first of every
identifier is kept, and of those the usable ones remain.
-/

namespace NodeFleet

/-- Resources that selector terms can pick. -/
class Selectable (R : Type) where
  kind : String
  id : R → String
  name : R → String
  tags : R → Table String
  hasOsType : R → String → Bool
  isUsable : R → Bool

/-- What a term asks for; an empty text asks for nothing. -/
structure Criteria where
  id : Option String
  name : Option String
  osType : Option String
  tags : Table String
deriving DecidableEq

/-- A text that is not empty. -/
def nonEmpty? (text : Option String) : Option String :=
  text.filter fun t => t ≠ ""

/-- What a term asks for. -/
def SelectorTerm.criteria (t : SelectorTerm) : Criteria :=
  ⟨nonEmpty? t.id, nonEmpty? t.name, none, t.tags⟩

/-- What a template term asks for. -/
def TemplateTerm.criteria (t : TemplateTerm) : Criteria :=
  ⟨nonEmpty? t.id, nonEmpty? t.name, nonEmpty? t.osType, t.tags⟩

/-- Whether the tags have every wanted key with the wanted value; a star wants any value that is
not empty. -/
def tagsSatisfy (tags wanted : Table String) : Bool :=
  wanted.entries.all fun want =>
    match tags.get? want.1 with
    | some value => (want.2 = "*" && value ≠ "") || value = want.2
    | none => false

/-- The first item of every key. -/
def firstPerKey {α : Type} (key : α → String) : List α → List α
  | [] => []
  | a :: rest => a :: (firstPerKey key rest).filter fun other => key other ≠ key a

namespace Selectable

variable {R : Type} [Selectable R]

/-- The candidates with the operating system and the tags that are asked for. -/
def matching (candidates : List R) (c : Criteria) : List R :=
  if c.osType = none ∧ c.tags.isEmpty then []
  else candidates.filter fun r =>
    (match c.osType with
      | some os => hasOsType r os
      | none => true)
      && tagsSatisfy (tags r) c.tags

/-- The first candidate with the identifier that is asked for. -/
def withId? (candidates : List R) (c : Criteria) : Option R :=
  c.id.bind fun wanted => candidates.find? fun r => id r = wanted

/-- The first candidate with the name that is asked for. -/
def withName? (candidates : List R) (c : Criteria) : Option R :=
  c.name.bind fun wanted => candidates.find? fun r => name r = wanted

/-- The candidates that one term picks. -/
def pick (candidates : List R) (c : Criteria) : List R :=
  match withId? candidates c with
  | some r => [r]
  | none =>
      match withName? candidates c with
      | some r => [r]
      | none => matching candidates c

/-- The picks of all terms, one after another. -/
def pickAll (candidates : List R) (terms : List Criteria) : List R :=
  terms.flatMap (pick candidates)

/-- The first resource of every identifier. -/
def distinct : List R → List R :=
  firstPerKey id

/-- The usable picks, at least one. -/
def resolve (candidates : List R) (terms : List Criteria) (zone : String) :
    Except ResourceError (List R) :=
  match (distinct (pickAll candidates terms)).filter fun r => isUsable r with
  | [] => .error (.noMatch (kind R) zone)
  | resolved => .ok resolved

end Selectable

end NodeFleet
