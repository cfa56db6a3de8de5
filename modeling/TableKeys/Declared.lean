/-
# Any declaration in the place of an index

The steps of a session that concern an index can be asked for with any declaration. A primary
key has no name, no query field and no say about the key of its table. A step that is asked for
with one goes on until it needs the first of these.
-/
import TableKeys.Snippet.Request
import TableKeys.Transform

namespace TableKeys.Session

open Template Snippet

/-- Stops because a primary key has no such part. -/
def lacking {α : Type} (part : String) : Step α :=
  throw (.fault (lacks part))

/-- Adds what is declared to the table of its type. -/
def appendDeclared : Decl → Step Unit
  | .index i => appendIndex i
  | .primary k => do
    let s ← get
    let _ ← tableOf k.object.name
    let _ ← lift .invalidField (k.attributes s.schema s.options)
    lacking "primary_partition_key_name"

/-- Looks for the resolvers of some mutations, whose snippets would need the name of an index if
the key is composite. -/
def seekMutations (k : KeyDecl) : List Operation → Step Unit
  | [] => return ()
  | op :: ops => do
    let place ← resolverFor k.object op
    if place.isSome && k.isComposite then lacking "name"
    else seekMutations k ops

/-- Injects the upkeep of the declared key and makes the resolver of its query field. -/
def updateResolversForDeclared : Decl → Step Unit
  | .index i => updateResolversForIndex i
  | .primary k => do
    seekMutations k [.create, .update]
    let s ← get
    match ← resolverFor k.object .delete with
    | some place =>
      let ensure := ensureCompositeKey k false s.options
      if ensure.isSome then
        let _ ← inject place [some (.stmt mergeInputsAndDefaults), ensure.map Node.stmt]
    | none => pure ()
    lacking "query_field"

/-- Makes and registers the resolver of the query field of what is declared. -/
def makeDeclaredQueryResolver : Decl → Step Resolver
  | .index i => makeQueryResolver i
  | .primary _ => lacking "query_field"

/-- Puts what is declared into effect. -/
def applyDeclared (d : Decl) : Step Unit := do
  appendDeclared d
  updateResolversForDeclared d

/-- The indexes among declarations that should all be indexes. -/
def indexesOf : List Decl → Step (List IndexDecl)
  | [] => return []
  | .index i :: ds => do
    let is ← indexesOf ds
    return i :: is
  | .primary _ :: _ => lacking "name"

/-- Puts the declarations of some types into effect, in order. -/
def transformDeclaredTypes (primaryKeys : List KeyDecl) (indexes : List Decl) :
    List String → Step Unit
  | [] => return ()
  | type :: types => do
    let keys := primaryKeys.filter (·.object.name == type)
    if 1 < keys.length then throw (.severalPrimaryKeys type)
    let declared ← indexesOf (indexes.filter (·.key.object.name == type))
    transformType { type, primaryKeys := keys, indexes := declared }
    transformDeclaredTypes primaryKeys indexes types

/-- Puts declarations into effect. -/
def transformDeclared (primaryKeys : List KeyDecl) (indexes : List Decl) : Step Unit :=
  transformDeclaredTypes primaryKeys indexes
    (declaredTypes (primaryKeys ++ indexes.map Decl.key))

/-! ## Indexes only -/

theorem indexesOf_map_index (is : List IndexDecl) :
    indexesOf (is.map .index) = pure is := by
  induction is with
  | nil => rfl
  | cons i is ih => simp [indexesOf, ih]

theorem transformDeclaredTypes_map_index (primaryKeys : List KeyDecl) (indexes : List IndexDecl)
    (types : List String) :
    transformDeclaredTypes primaryKeys (indexes.map .index) types =
      transformTypes (types.map fun type => {
        type
        primaryKeys := primaryKeys.filter (·.object.name == type)
        indexes := indexes.filter (·.object.name == type) }) := by
  induction types with
  | nil => rfl
  | cons type types ih =>
    have hindexes : (indexes.map Decl.index).filter (·.key.object.name == type) =
        (indexes.filter (·.object.name == type)).map .index := by
      rw [List.filter_map]; rfl
    simp only [transformDeclaredTypes, List.map_cons, transformTypes, hindexes,
      indexesOf_map_index, pure_bind, ih]
    generalize primaryKeys.filter (·.object.name == type) = keys
    match keys with
    | [] => rfl
    | [_] => rfl
    | _ :: _ :: _ => simp [transformType]; rfl

/-- Declarations that are indexes where indexes are due are put into effect as such. -/
theorem transformDeclared_map_index (primaryKeys : List KeyDecl) (indexes : List IndexDecl) :
    transformDeclared primaryKeys (indexes.map .index) = transform primaryKeys indexes := by
  have hkeys : (indexes.map Decl.index).map Decl.key = indexes.map IndexDecl.toKeyDecl := by
    rw [List.map_map]; rfl
  rw [transformDeclared, transform, byType, hkeys, transformDeclaredTypes_map_index]

end TableKeys.Session
