/-
# Resolvers

A resolver answers a field of a type. It has a request and a response template, perhaps, and
named slots with further templates. A template that is added to a slot gets a name of its
own: placeholders in its name are replaced by the name of the slot and the position in it.
The registry knows resolvers by type and field.
-/
import TableKeys.Key.Decl
import TableKeys.Template.Mapping
import TableKeys.Text.Search

namespace TableKeys

open Template Text

/-- A resolver. The data source is known by name. -/
structure Resolver where
  typeName : String
  fieldName : String
  dataSource : Option String := none
  request : Option MappingTemplate := none
  response : Option MappingTemplate := none
  slots : Entries String (List MappingTemplate) := []
deriving Repr

/-- The place in a template name for the name of its slot. -/
def slotNamePlace : String := "\x7bslotName\x7d"

/-- The place in a template name for its position in the slot. -/
def slotIndexPlace : String := "\x7bslotIndex\x7d"

/-- The last line of an injected template, which does nothing. -/
def noOperation : String := "\x7b\x7d"

namespace Resolver

/-- The templates of a slot, in order. -/
def slot (r : Resolver) (name : String) : List MappingTemplate :=
  (r.slots.get? name).getD []

/-- The name of a template at a position of a slot, counted from one. -/
def placedName (name slot : String) (position : Nat) : String :=
  replaceText slotIndexPlace (toString position) (replaceText slotNamePlace slot name)

/-- The template as it stands in the slot after the ones that are there. -/
def placed (r : Resolver) (slot : String) (t : MappingTemplate) : MappingTemplate :=
  { t with name := placedName t.name slot ((r.slot slot).length + 1) }

/-- Adds a template at the end of a slot. -/
def addToSlot (r : Resolver) (slot : String) (t : MappingTemplate) : Resolver :=
  { r with slots := r.slots.put slot (r.slot slot ++ [r.placed slot t]) }

/-- The template that carries snippets into a slot; snippets that are not there are left out. -/
def snippetTemplate (r : Resolver) (snippets : List (Option Node)) : MappingTemplate where
  name := r.typeName ++ "." ++ r.fieldName ++ "." ++ slotNamePlace ++ "." ++ slotIndexPlace ++
    ".req.vtl"
  stages := snippets.filterMap id
  terminator := some noOperation

/-- Runs the templates of a slot. -/
def runSlot (separator : String) (r : Resolver) (slot : String) : Run Value := do
  MappingTemplate.runAll separator (r.slot slot)
  return .null

/-- Runs a template that has to be there. -/
def runPresent (separator : String) : Option MappingTemplate → Run Value
  | some t => t.run separator
  | none => Run.fault (.noAttribute "NoneType" "name")

/-- Runs the request template of a resolver. -/
def runRequest (separator : String) (r : Resolver) : Run Value :=
  runPresent separator r.request

/-- Runs the response template of a resolver. -/
def runResponse (separator : String) (r : Resolver) : Run Value :=
  runPresent separator r.response

end Resolver

/-- The resolvers, by type and field, in the order in which they were added. -/
abbrev Registry := Entries (String × String) Resolver

end TableKeys
