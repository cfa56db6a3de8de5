/-
# What a transformation puts into the slots of resolvers

Putting declarations into effect adds templates to the slots of resolvers and takes none away.
For one resolver and the slot of the options, a step of a session appends templates with certain
statements (`Step.Appends`): each injection one template, if the operation belongs to the
resolver, everything else none.

* `appends_updateResolvers`, `appends_injectIndex`: what a primary key and an index append;
* `appends_transform`: what the declarations of one type append.
-/
import TableKeys.Proofs.Injected
import TableKeys.Proofs.Results

namespace TableKeys

open Template Snippet

/-- The place of the resolver for an operation on a type, whether or not one is there. -/
def Schema.placeOf (schema : Schema) (type : ObjectType) (op : Operation) :
    Option (String × String) :=
  match type.operationName op, schema.rootType op with
  | some field, some root => if field.isEmpty || root.isEmpty then none else some (root, field)
  | _, _ => none

/-- The statements of the templates in a slot. -/
def Resolver.bodies (r : Resolver) (slot : String) : List (List Stmt) :=
  (r.slot slot).map fun t => t.stages.map Node.asStmt

lemma Resolver.bodies_addToSlot (r : Resolver) (slot : String) (t : MappingTemplate) :
    (r.addToSlot slot t).bodies slot = r.bodies slot ++ [t.stages.map Node.asStmt] := by
  have hslot : (r.addToSlot slot t).slot slot = r.slot slot ++ [r.placed slot t] := by
    rw [addToSlot, Resolver.slot, Entries.get?_put_self, Option.getD_some]
  rw [bodies, hslot, List.map_append, List.map_singleton, bodies, placed]

namespace Session

lemma get_bind {β : Type} (f : Session → Step β) (s : Session) :
    (get >>= f : Step β) s = f s s := rfl

/-- Looking for the resolver of an operation leaves the session alone, but notes where there is
none. -/
lemma resolverFor_apply (type : ObjectType) (op : Operation) (s : Session) :
    resolverFor type op s =
      match s.schema.placeOf type op with
      | none => .ok none s
      | some p =>
        if s.resolvers.has p then .ok (some p) s
        else .ok none { s with log := s.log ++ [.noResolver p.1 p.2 op.name] } := by
  rw [resolverFor, get_bind]
  unfold Schema.placeOf
  cases hfield : type.operationName op <;> cases hroot : s.schema.rootType op <;>
    simp only
  case some.some field root =>
    split
    · rfl
    · dsimp only
      split <;> rfl
  all_goals rfl

/-- An injection adds a template to the resolver at its place, if there is one. -/
lemma inject_ok {place : String × String} {snippets : List (Option Node)} {s s' : Session}
    {name : Option String} (h : inject place snippets s = .ok name s') :
    (s.resolvers.get? place = none ∧ s' = s) ∨
      ∃ r e, s.resolvers.get? place = some r ∧ s' = { s with
        resolvers := s.resolvers.put place
          (r.addToSlot s.options.slot (r.snippetTemplate snippets))
        log := s.log ++ [e] } := by
  rw [inject, get_bind] at h
  cases hr : s.resolvers.get? place with
  | none =>
    rw [hr] at h
    cases h
    exact .inl ⟨rfl, rfl⟩
  | some r =>
    rw [hr] at h
    cases h
    exact .inr ⟨r, _, rfl, rfl⟩

/-- A resolver is registered where there was none. -/
lemma addResolver_ok {type field : String} {r : Resolver} {s s' : Session} {u : Unit}
    (h : addResolver type field r s = .ok u s') :
    s.resolvers.get? (type, field) = none ∧
      s' = { s with resolvers := s.resolvers.put (type, field) r } := by
  rw [addResolver, get_bind] at h
  split at h
  · cases h
  · rename_i hhas
    cases h
    exact ⟨by simpa [Entries.has] using hhas, rfl⟩

/-- The session has this schema and these options, and the templates of the resolver at a place
have these statements. -/
structure Shelves (s : Session) (schema : Schema) (o : Options) (place : String × String)
    (bodies : List (List Stmt)) : Prop where
  schema : s.schema = schema
  options : s.options = o
  resolver : ∃ r, s.resolvers.get? place = some r ∧ r.bodies o.slot = bodies

/-- A step that goes well appends templates with these statements. -/
def Appends {α : Type} (x : Step α) (schema : Schema) (o : Options) (place : String × String)
    (bodies : List (List Stmt)) : Prop :=
  ∀ s s' a before, s.Shelves schema o place before → x s = .ok a s' →
    s'.Shelves schema o place (before ++ bodies)

namespace Appends

variable {α β : Type} {schema : Schema} {o : Options} {place : String × String}
  {bodies bodies' : List (List Stmt)}

lemma pure (a : α) : Appends (Pure.pure a : Step α) schema o place [] := by
  intro s s' b before hs h
  cases h
  rwa [List.append_nil]

lemma throw (e : SessionError) : Appends (MonadExcept.throw e : Step α) schema o place bodies := by
  intro s s' b before hs h
  cases h

lemma throw_bind (e : SessionError) (f : α → Step β) :
    Appends (MonadExcept.throw e >>= f) schema o place bodies := by
  intro s s' b before hs h
  cases h

lemma bind {x : Step α} {f : α → Step β} (hx : Appends x schema o place bodies)
    (hf : ∀ a, Appends (f a) schema o place bodies') :
    Appends (x >>= f) schema o place (bodies ++ bodies') := by
  intro s s' b before hs h
  obtain ⟨a, t, hr, hrest⟩ := of_bind_ok h
  rw [← List.append_assoc]
  exact hf a t s' b _ (hx s t a before hs hr) hrest

/-- Steps that append nothing may be left out. -/
lemma seq {x : Step α} {f : α → Step β} (hx : Appends x schema o place [])
    (hf : ∀ a, Appends (f a) schema o place bodies) : Appends (x >>= f) schema o place bodies :=
  hx.bind hf

lemma last {x : Step α} {f : α → Step β} (hx : Appends x schema o place bodies)
    (hf : ∀ a, Appends (f a) schema o place []) : Appends (x >>= f) schema o place bodies := by
  have h := hx.bind hf
  rwa [List.append_nil] at h

lemma get {f : Session → Step β}
    (hf : ∀ s : Session, s.schema = schema → s.options = o → Appends (f s) schema o place bodies) :
    Appends (MonadState.get >>= f) schema o place bodies := by
  intro s s' b before hs h
  exact hf s hs.schema hs.options s s' b before hs h

/-- A change that leaves schema, options and resolvers alone appends nothing. -/
lemma change {f : Session → Session} (hschema : ∀ s, (f s).schema = s.schema)
    (hoptions : ∀ s, (f s).options = s.options) (hresolvers : ∀ s, (f s).resolvers = s.resolvers) :
    Appends (modify f : Step Unit) schema o place [] := by
  intro s s' b before hs h
  cases h
  rw [List.append_nil]
  exact ⟨(hschema s).trans hs.schema, (hoptions s).trans hs.options,
    by rw [hresolvers]; exact hs.resolver⟩

lemma record (e : Event) : Appends (Session.record e) schema o place [] :=
  change (fun _ => rfl) (fun _ => rfl) fun _ => rfl

lemma lift {ε : Type} (wrap : ε → SessionError) (x : Except ε α) :
    Appends (Session.lift wrap x) schema o place [] := by
  cases x with
  | ok a => exact pure a
  | error e => exact throw (wrap e)

lemma tableOf (type : String) : Appends (Session.tableOf type) schema o place [] := by
  refine get fun s _ _ => ?_
  split
  · exact pure _
  · exact throw _

lemma changeTable (type : String) (change : TableChange Event) :
    Appends (Session.changeTable type change) schema o place [] := by
  refine seq (tableOf type) fun table => ?_
  split
  · exact seq (Appends.change (fun _ => rfl) (fun _ => rfl) fun _ => rfl) fun _ => record _
  · exact seq (Appends.change (fun _ => rfl) (fun _ => rfl) fun _ => rfl) fun _ => throw _

end Appends

/-! ## Injections -/

section Injections

variable {schema : Schema} {o : Options} {place : String × String}

/-- What is injected for an operation at a place: one template if the operation belongs there. -/
def injected (schema : Schema) (place : String × String) (type : ObjectType) (op : Operation)
    (snippets : List (Option Stmt)) : List (List Stmt) :=
  if schema.placeOf type op = some place then [snippets.filterMap id] else []

lemma appends_inject (target : String × String) (snippets : List (Option Stmt)) :
    Appends (inject target (snippets.map fun s => s.map Node.stmt)) schema o place
      (if target = place then [snippets.filterMap id] else []) := by
  intro s s' a before hs h
  obtain ⟨hschema, hoptions, r, hr, hbodies⟩ := hs
  obtain ⟨ht, rfl⟩ | ⟨r', e, ht, rfl⟩ := inject_ok h
  · have hne : target ≠ place := by
      rintro rfl
      rw [hr] at ht
      cases ht
    rw [if_neg hne, List.append_nil]
    exact ⟨hschema, hoptions, r, hr, hbodies⟩
  · refine ⟨hschema, hoptions, ?_⟩
    by_cases hplace : target = place
    · subst hplace
      obtain rfl := Option.some.inj (hr.symm.trans ht)
      refine ⟨_, Entries.get?_put_self _ _ _, ?_⟩
      rw [if_pos rfl, hoptions, Resolver.bodies_addToSlot, hbodies]
      exact congrArg (before ++ [·]) (stages_injected r o.slot snippets)
    · refine ⟨r, ?_, by rw [if_neg hplace, List.append_nil, hbodies]⟩
      show Entries.get? (Entries.put s.resolvers target _) place = some r
      rw [Entries.get?_put_of_ne _ _ (by simpa using hplace), hr]

/-- The resolver for an operation is the one at the place if the operation belongs there. -/
lemma resolverFor_ok {type : ObjectType} {op : Operation} {s s' : Session}
    {found : Option (String × String)} {before : List (List Stmt)}
    (hs : s.Shelves schema o place before) (h : resolverFor type op s = .ok found s') :
    s'.Shelves schema o place before ∧
      (found = some place ↔ schema.placeOf type op = some place) := by
  obtain rfl := hs.schema
  rw [resolverFor_apply] at h
  cases hp : s.schema.placeOf type op with
  | none =>
    simp only [hp] at h
    cases h
    exact ⟨hs, by simp⟩
  | some p =>
    simp only [hp] at h
    split at h
    · cases h
      exact ⟨hs, by simp⟩
    · rename_i hhas
      cases h
      refine ⟨⟨rfl, hs.options, hs.resolver⟩, ?_⟩
      -- there is a resolver at the place, so the missing one belongs to another
      obtain ⟨r, hr, -⟩ := hs.resolver
      have hne : p ≠ place := by
        rintro rfl
        rw [Entries.has, hr] at hhas
        exact hhas rfl
      simpa using hne

/-- A step that depends on the resolver for an operation. -/
lemma appends_resolverFor {α : Type} {bodies : List (List Stmt)} {type : ObjectType}
    {op : Operation} {f : Option (String × String) → Step α}
    (hf : ∀ found, (found = some place ↔ schema.placeOf type op = some place) →
      Appends (f found) schema o place bodies) :
    Appends (resolverFor type op >>= f) schema o place bodies := by
  intro s s' a before hs h
  obtain ⟨found, t, hr, hrest⟩ := of_bind_ok h
  obtain ⟨ht, hfound⟩ := resolverFor_ok hs hr
  exact hf found hfound t s' a before ht hrest

lemma injected_of_iff {type : ObjectType} {op : Operation} {target : String × String}
    (hfound : some target = some place ↔ schema.placeOf type op = some place)
    (snippets : List (Option Stmt)) :
    injected schema place type op snippets =
      if target = place then [snippets.filterMap id] else [] := by
  rw [injected]
  by_cases hplace : target = place
  · rw [if_pos hplace, if_pos (hfound.mp (congrArg some hplace))]
  · rw [if_neg hplace, if_neg fun h => hplace (Option.some.inj (hfound.mpr h))]

/-! ## Primary keys -/

lemma appends_injectFor (type : ObjectType) (op : Operation) (snippets : List (Option Stmt)) :
    Appends (injectFor type op snippets) schema o place
      (injected schema place type op snippets) := by
  refine appends_resolverFor fun found hfound => ?_
  cases found with
  | none =>
    rw [injected, if_neg fun hplace => by cases hfound.mpr hplace]
    exact .pure ()
  | some target =>
    rw [injected_of_iff hfound]
    exact (appends_inject target snippets).last fun _ => .pure ()

lemma appends_injectPrimary (k : KeyDecl) (ops : List Operation) :
    Appends (injectPrimary k ops) schema o place
      (ops.flatMap fun op => injected schema place k.object op (primarySnippets k o op)) := by
  induction ops with
  | nil => exact .pure ()
  | cons op ops ih =>
    refine Appends.get fun s _ ho => ?_
    rw [ho]
    exact (appends_injectFor k.object op _).bind fun _ => ih

lemma appends_replacePrimaryKey (k : KeyDecl) :
    Appends (replacePrimaryKey k) schema o place [] := by
  refine Appends.get fun s _ _ => ?_
  refine .seq (.tableOf _) fun _ => .seq (.lift _ _) fun _ => .changeTable _ _

/-- What a primary key appends. -/
lemma appends_applyPrimaryKey (k : KeyDecl) :
    Appends (applyPrimaryKey k) schema o place
      ([Operation.get, .list, .create, .update, .delete].flatMap fun op =>
        injected schema place k.object op (primarySnippets k o op)) :=
  .seq (appends_replacePrimaryKey k) fun _ => appends_injectPrimary k _

/-! ## Indexes -/

lemma appends_appendIndex (i : IndexDecl) : Appends (appendIndex i) schema o place [] := by
  refine Appends.get fun s _ _ => .seq (.tableOf _) fun table => .seq (.lift _ _) fun _ => ?_
  dsimp only
  have hplace : ∀ (isLocal : Bool) (l g : TableChange Event) (e e' : Event),
      Appends (if isLocal = true then do
          Session.changeTable i.object.name l
          Session.record e
        else do
          Session.changeTable i.object.name g
          Session.record e') schema o place [] := by
    intro isLocal l g e e'
    cases isLocal <;> exact .seq (.changeTable _ _) fun _ => .record _
  split
  · split
    · exact .throw_bind _ _
    · exact .seq (.lift _ _) fun _ => hplace _ _ _ _ _
  · exact .seq (.lift _ _) fun _ => hplace _ _ _ _ _

/-- What an index appends for an operation. -/
def indexInjected (schema : Schema) (o : Options) (place : String × String) (i : IndexDecl)
    (op : Operation) : List (List Stmt) :=
  if (indexSnippets i o op).any Option.isSome then
    injected schema place i.object op (some mergeInputsAndDefaults :: indexSnippets i o op)
  else []

lemma appends_injectIndex (i : IndexDecl) (ops : List Operation) :
    Appends (injectIndex i ops) schema o place
      (ops.flatMap fun op => indexInjected schema o place i op) := by
  induction ops with
  | nil => exact .pure ()
  | cons op ops ih =>
    refine Appends.get fun s _ ho => appends_resolverFor fun found hfound => ?_
    rw [ho, List.flatMap_cons]
    cases found with
    | none =>
      have hnone : indexInjected schema o place i op = [] := by
        have hplace : schema.placeOf i.object op ≠ some place := fun h => by cases hfound.mpr h
        rw [indexInjected, injected, if_neg hplace, ite_self]
      rw [hnone]
      exact .seq (.pure ()) fun _ => ih
    | some target =>
      dsimp only
      by_cases hany : (indexSnippets i o op).any Option.isSome = true
      · rw [if_pos hany, indexInjected, if_pos hany, injected_of_iff hfound]
        exact (appends_inject target (some mergeInputsAndDefaults :: indexSnippets i o op)).bind
          fun _ => ih
      · rw [if_neg hany, indexInjected, if_neg hany]
        exact ih

lemma appends_addResolver (type field : String) (r : Resolver) :
    Appends (addResolver type field r) schema o place [] := by
  intro s s' a before hs h
  obtain ⟨hnone, rfl⟩ := addResolver_ok h
  obtain ⟨hschema, hoptions, r', hr, hbodies⟩ := hs
  -- a new resolver stands where there was none, so not at the place
  have hne : (type, field) ≠ place := by
    rintro rfl
    rw [hr] at hnone
    cases hnone
  refine ⟨hschema, hoptions, r', ?_, by rw [List.append_nil, hbodies]⟩
  show Entries.get? (Entries.put s.resolvers (type, field) r) place = some r'
  rw [Entries.get?_put_of_ne _ _ (by simpa using hne), hr]

lemma appends_makeQueryResolver (i : IndexDecl) :
    Appends (makeQueryResolver i) schema o place [] := by
  refine Appends.get fun s _ _ => ?_
  dsimp only
  split
  · exact .throw _
  · exact .throw _
  · refine .seq (.tableOf _) fun _ => ?_
    split
    · exact .throw_bind _ _
    · exact .seq (appends_addResolver _ _ _) fun _ => .seq (.record _) fun _ => .pure _

/-- What an index appends. -/
lemma appends_applyIndex (i : IndexDecl) :
    Appends (applyIndex i) schema o place
      ([Operation.create, .update, .delete].flatMap fun op =>
        indexInjected schema o place i op) := by
  refine .seq (appends_appendIndex i) fun _ => (appends_injectIndex i _).last fun _ => ?_
  split
  · exact .pure ()
  · exact .pure ()
  · exact .seq (appends_makeQueryResolver i) fun _ => .pure ()

lemma appends_applyIndexes (is : List IndexDecl) :
    Appends (applyIndexes is) schema o place
      (is.flatMap fun i => [Operation.create, .update, .delete].flatMap fun op =>
        indexInjected schema o place i op) := by
  induction is with
  | nil => exact .pure ()
  | cons i is ih => exact (appends_applyIndex i).bind fun _ => ih

/-! ## Whole types -/

lemma byType_single {k : KeyDecl} {is : List IndexDecl} (h : ∀ i ∈ is, i.object = k.object) :
    byType [k] is = [{ type := k.object.name, primaryKeys := [k], indexes := is }] := by
  have htypes : ∀ types : List String, (∀ t ∈ types, t = k.object.name) →
      types.foldl (fun types type => if types.contains type then types else types ++ [type])
        [k.object.name] = [k.object.name] := by
    intro types htypes
    induction types with
    | nil => rfl
    | cons t ts ih =>
      obtain rfl := htypes t (by simp)
      simpa using ih fun u hu => htypes u (by simp [hu])
  have hdeclared : declaredTypes ([k] ++ is.map IndexDecl.toKeyDecl) = [k.object.name] := by
    refine htypes _ fun t ht => ?_
    obtain ⟨d, hd, rfl⟩ := List.mem_map.mp ht
    obtain ⟨i, hi, rfl⟩ := List.mem_map.mp hd
    rw [h i hi]
  have hindexes : is.filter (·.object.name == k.object.name) = is :=
    List.filter_eq_self.mpr fun i hi => by rw [h i hi, beq_self_eq_true]
  rw [byType, hdeclared]
  simp [hindexes]

/-- **What a transformation appends** to the slot of a resolver: first the templates for the
primary key, then those for the indexes in order. -/
theorem appends_transform {k : KeyDecl} {is : List IndexDecl}
    (h : ∀ i ∈ is, i.object = k.object) :
    Appends (transform [k] is) schema o place
      (([Operation.get, .list, .create, .update, .delete].flatMap fun op =>
          injected schema place k.object op (primarySnippets k o op)) ++
        is.flatMap fun i => [Operation.create, .update, .delete].flatMap fun op =>
          indexInjected schema o place i op) := by
  rw [transform, byType_single h]
  refine .last ?_ fun _ => .pure ()
  refine .seq (.record _) fun _ => ?_
  exact (appends_applyPrimaryKey k).bind fun _ => appends_applyIndexes is

end Injections

end Session

end TableKeys
