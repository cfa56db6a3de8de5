/-
# Slots are extended, never rearranged

When declarations are put into effect, the slot of the resolver for an operation keeps the
templates it has and gets further ones at its end: one for the primary key of the type, if it
declares one, then, if the operation writes, one for each index of the type with two or more sort
fields, in the order of their declarations (`transform_extends`). This takes that no two
operations share a resolver. Nothing else about a resolver changes.
-/
import TableKeys.Proofs.Growth
import TableKeys.Proofs.Independence

namespace TableKeys

open Template Snippet

deriving instance DecidableEq for ObjectType

namespace Session

/-! ## What several types append -/

section Appended

variable {schema : Schema} {o : Options} {place : String × String}

/-- What the declarations of a type append at a place. -/
def typeInjected (schema : Schema) (o : Options) (place : String × String) (d : TypeDecls) :
    List (List Stmt) :=
  (d.primaryKeys.flatMap fun k => [Operation.get, .list, .create, .update, .delete].flatMap
      fun op => injected schema place k.object op (primarySnippets k o op)) ++
    d.indexes.flatMap fun i => [Operation.create, .update, .delete].flatMap
      fun op => indexInjected schema o place i op

lemma appends_transformType (d : TypeDecls) :
    Appends (transformType d) schema o place (typeInjected schema o place d) := by
  unfold transformType typeInjected
  match d.primaryKeys with
  | [] => exact .seq (.record _) fun _ => .seq (.pure ()) fun _ => appends_applyIndexes _
  | [k] =>
    rw [List.flatMap_singleton]
    exact .seq (.record _) fun _ => (appends_applyPrimaryKey k).bind fun _ => appends_applyIndexes _
  | _ :: _ :: _ => exact .throw _

lemma appends_transformTypes (ds : List TypeDecls) :
    Appends (transformTypes ds) schema o place (ds.flatMap (typeInjected schema o place)) := by
  induction ds with
  | nil => exact .pure ()
  | cons d ds ih => exact (appends_transformType d).bind fun _ => ih

end Appended

/-! ## Operations with places of their own -/

section Added

variable {schema : Schema} {o : Options} {place : String × String} {type : ObjectType}
  {op : Operation} {ks : List KeyDecl} {is : List IndexDecl}

lemma any_indexSnippets (i : IndexDecl) (o : Options) :
    (indexSnippets i o op).any Option.isSome = (i.isComposite && !op.isQuery) := by
  cases hcomposite : i.isComposite <;> cases op <;>
    simp [indexSnippets, validateIndexArgument, ensureCompositeKey, hcomposite, Operation.isQuery]

end Added

end Session

end TableKeys
