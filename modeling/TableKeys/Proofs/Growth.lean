/-
# How resolvers grow

Putting declarations into effect never takes a template away from a resolver. The slot of the
options gets further templates at its end, the request and response templates stay as they are,
and new resolvers come for the query fields of indexes. All templates that come are known: those
in the slot at a place belong to an operation that the resolver there serves (`Injects`), and
those of a new resolver to an index query (`QueriesIndex`).

* `transform_grows`: what comes when any number of declarations is put into effect.
-/
import TableKeys.Proofs.SlotNames
import TableKeys.Proofs.TableRun

namespace TableKeys

open Template Snippet

/-- A resolver with further templates in a slot. -/
structure Resolver.Grows (r r' : Resolver) (slot : String) (W : List Stmt → Prop) : Prop where
  typeName : r'.typeName = r.typeName
  fieldName : r'.fieldName = r.fieldName
  request : r'.request = r.request
  response : r'.response = r.response
  other : ∀ name, name ≠ slot → r'.slot name = r.slot name
  filled : r.Filled slot → r'.Filled slot
  slot : ∃ new, r'.slot slot = r.slot slot ++ new ∧ ∀ t ∈ new, W (t.stages.map Node.asStmt)

namespace Resolver.Grows

variable {r r₁ r' : Resolver} {slot : String} {W : List Stmt → Prop}

lemma refl (r : Resolver) : r.Grows r slot W :=
  ⟨rfl, rfl, rfl, rfl, fun _ _ => rfl, id, [], by simp, by simp⟩

lemma trans (h : r.Grows r₁ slot W) (h' : r₁.Grows r' slot W) : r.Grows r' slot W := by
  obtain ⟨new, hnew, hW⟩ := h.slot
  obtain ⟨new', hnew', hW'⟩ := h'.slot
  refine ⟨h'.typeName.trans h.typeName, h'.fieldName.trans h.fieldName,
    h'.request.trans h.request, h'.response.trans h.response,
    fun name hname => (h'.other name hname).trans (h.other name hname),
    fun hr => h'.filled (h.filled hr), new ++ new', ?_, fun t ht => ?_⟩
  · rw [hnew', hnew, List.append_assoc]
  · rcases List.mem_append.mp ht with ht | ht
    · exact hW t ht
    · exact hW' t ht

lemma addToSlot (r : Resolver) (slot : String) {snippets : List (Option Stmt)}
    (hW : W (snippets.filterMap id)) :
    r.Grows (r.addToSlot slot (r.snippetTemplate (snippets.map fun s => s.map Node.stmt))) slot
      W := by
  refine ⟨rfl, rfl, rfl, rfl, fun name hname => ?_, fun hr => hr.addToSlot _,
    [r.injected slot snippets], ?_, fun t ht => ?_⟩
  · rw [Resolver.slot, Resolver.addToSlot, Entries.get?_put_of_ne _ _ (by simpa using hname.symm)]
    rfl
  · rw [Resolver.slot, Resolver.addToSlot, Entries.get?_put_self, Option.getD_some]
    rfl
  · rw [List.mem_singleton.mp ht, stages_injected]
    exact hW

end Resolver.Grows

namespace Session

/-- The resolvers of the second session are those of the first and new ones, all of them perhaps
with further templates: `W` says which come at a place, `M` which resolvers are made. -/
structure Grown (W : String × String → List Stmt → Prop) (M : Resolver → Prop)
    (s s' : Session) : Prop where
  schema : s'.schema = s.schema
  options : s'.options = s.options
  kept : ∀ place r, s.resolvers.get? place = some r →
    ∃ r', s'.resolvers.get? place = some r' ∧ r.Grows r' s.options.slot (W place)
  made : ∀ place r', s.resolvers.get? place = none → s'.resolvers.get? place = some r' →
    ∃ r, M r ∧ r.Grows r' s.options.slot (W place)

section Growth

variable {W : String × String → List Stmt → Prop} {M : Resolver → Prop} {s s₁ s' : Session}

lemma Grown.of_resolvers (hschema : s'.schema = s.schema) (hoptions : s'.options = s.options)
    (hresolvers : s'.resolvers = s.resolvers) : Grown W M s s' where
  schema := hschema
  options := hoptions
  kept place r hr := ⟨r, by rw [hresolvers, hr], .refl r⟩
  made place r' hnone hsome := by
    rw [hresolvers, hnone] at hsome
    cases hsome

lemma Grown.refl (s : Session) : Grown W M s s :=
  .of_resolvers rfl rfl rfl

lemma Grown.trans (h : Grown W M s s₁) (h' : Grown W M s₁ s') : Grown W M s s' where
  schema := h'.schema.trans h.schema
  options := h'.options.trans h.options
  kept place r hr := by
    obtain ⟨r₁, hr₁, hgrows⟩ := h.kept place r hr
    obtain ⟨r', hr', hgrows'⟩ := h'.kept place r₁ hr₁
    exact ⟨r', hr', hgrows.trans (h.options ▸ hgrows')⟩
  made place r' hnone hsome := by
    cases hr₁ : s₁.resolvers.get? place with
    | none =>
      obtain ⟨r, hM, hgrows⟩ := h'.made place r' hr₁ hsome
      exact ⟨r, hM, h.options ▸ hgrows⟩
    | some r₁ =>
      obtain ⟨r, hM, hgrows⟩ := h.made place r₁ hnone hr₁
      obtain ⟨r₂, hr₂, hgrows'⟩ := h'.kept place r₁ hr₁
      obtain rfl := Option.some.inj (hr₂.symm.trans hsome)
      exact ⟨r, hM, hgrows.trans (h.options ▸ hgrows')⟩

instance : Std.Refl (Grown W M) := ⟨Grown.refl⟩

instance : IsTrans Session (Grown W M) := ⟨fun _ _ _ => Grown.trans⟩

/-! ## Steps -/

lemma record_grows (e : Event) : Leads (Grown W M) (record e) := by
  intro s s' u h
  cases h
  exact .of_resolvers rfl rfl rfl

lemma lift_grows {ε α : Type} (wrap : ε → SessionError) (x : Except ε α) :
    Leads (Grown W M) (lift wrap x) := by
  intro s s' a h
  obtain ⟨-, rfl⟩ := lift_ok h
  exact .refl s

lemma changeTable_grows (type : String) (change : TableChange Event) :
    Leads (Grown W M) (changeTable type change) := by
  refine .bind (.tableOf type) fun table s s' u h => ?_
  cases hrun : change.run table with
  | ok e t =>
    simp only [hrun] at h
    cases h
    exact .of_resolvers rfl rfl rfl
  | error e t =>
    simp only [hrun] at h
    cases h

lemma inject_grows {place : String × String} {snippets : List (Option Stmt)}
    (hW : W place (snippets.filterMap id)) :
    Leads (Grown W M) (inject place (snippets.map fun s => s.map Node.stmt)) := by
  intro s s' name h
  obtain ⟨-, rfl⟩ | ⟨r, e, hr, rfl⟩ := inject_ok h
  · exact .refl s'
  · refine ⟨rfl, rfl, fun place' r₁ hr₁ => ?_, fun place' r₁ hnone hsome => ?_⟩
    · by_cases hplace : place = place'
      · subst hplace
        obtain rfl := Option.some.inj (hr.symm.trans hr₁)
        exact ⟨_, Entries.get?_put_self _ _ _, .addToSlot r s.options.slot hW⟩
      · refine ⟨r₁, ?_, .refl r₁⟩
        show Entries.get? (Entries.put s.resolvers place _) place' = some r₁
        rw [Entries.get?_put_of_ne _ _ (by simpa using hplace), hr₁]
    · -- a resolver that gets a template was there before
      have hplace : place ≠ place' := by
        rintro rfl
        rw [hr] at hnone
        cases hnone
      have hsome' : Entries.get? (Entries.put s.resolvers place _) place' = some r₁ := hsome
      rw [Entries.get?_put_of_ne _ _ (by simpa using hplace), hnone] at hsome'
      cases hsome'

lemma addResolver_grows {type field : String} {r : Resolver} (hM : M r) :
    Leads (Grown W M) (addResolver type field r) := by
  intro s s' u h
  obtain ⟨hfree, rfl⟩ := addResolver_ok h
  refine ⟨rfl, rfl, fun place r₁ hr₁ => ?_, fun place r₁ hnone hsome => ?_⟩
  · have hplace : (type, field) ≠ place := by
      rintro rfl
      rw [hr₁] at hfree
      cases hfree
    refine ⟨r₁, ?_, .refl r₁⟩
    show Entries.get? (Entries.put s.resolvers (type, field) r) place = some r₁
    rw [Entries.get?_put_of_ne _ _ (by simpa using hplace), hr₁]
  · have hsome' : Entries.get? (Entries.put s.resolvers (type, field) r) place = some r₁ := hsome
    rw [Entries.get?_put] at hsome'
    split at hsome'
    · obtain rfl := Option.some.inj hsome'
      exact ⟨r, hM, .refl r⟩
    · rw [hnone] at hsome'
      cases hsome'

end Growth

/-! ## Declarations -/

/-- The statements of the templates that come into the slot of the resolver at a place. -/
inductive Injects (schema : Schema) (o : Options) (ks : List KeyDecl) (is : List IndexDecl)
    (place : String × String) : List Stmt → Prop
  | primary {k : KeyDecl} {op : Operation} (hk : k ∈ ks)
      (hplace : schema.placeOf k.object op = some place) :
      Injects schema o ks is place ((primarySnippets k o op).filterMap id)
  | index {i : IndexDecl} {op : Operation} (hi : i ∈ is)
      (hplace : schema.placeOf i.object op = some place)
      (hany : (indexSnippets i o op).any Option.isSome = true) :
      Injects schema o ks is place
        ((some mergeInputsAndDefaults :: indexSnippets i o op).filterMap id)

/-- The resolver answers the query field of an index. -/
structure QueriesIndex (o : Options) (is : List IndexDecl) (r : Resolver) : Prop where
  slots : r.slots = []
  request : ∃ i ∈ is, ∃ t, r.request = some t ∧ t.stages.map Node.asStmt = [queryRequest i o]
  response : ∃ t, r.response = some t ∧ t.stages.map Node.asStmt = [queryResponse]

section Declarations

variable {schema : Schema} {o : Options} {ks : List KeyDecl} {is : List IndexDecl}

/-- The resolvers grow by templates for the declarations, if schema and options are these. -/
def Declares (schema : Schema) (o : Options) (ks : List KeyDecl) (is : List IndexDecl)
    (s s' : Session) : Prop :=
  s.schema = schema → s.options = o →
    Grown (Injects schema o ks is) (QueriesIndex o is) s s'

instance : Std.Refl (Declares schema o ks is) := ⟨fun s _ _ => .refl s⟩

instance : IsTrans Session (Declares schema o ks is) := ⟨fun _ _ _ h h' hschema ho => by
  have hs := h hschema ho
  exact hs.trans (h' (hs.schema.trans hschema) (hs.options.trans ho))⟩

/-- What a step does no matter what is declared. -/
lemma Leads.declares {α : Type} {x : Step α}
    (h : Leads (Grown (Injects schema o ks is) (QueriesIndex o is)) x) :
    Leads (Declares schema o ks is) x :=
  h.mono fun _ _ h _ _ => h

lemma declares_get {α : Type} {f : Session → Step α}
    (hf : ∀ s : Session, s.schema = schema → s.options = o →
      Leads (Declares schema o ks is) (f s)) :
    Leads (Declares schema o ks is) (MonadState.get >>= f) :=
  fun s s' a h hschema ho => hf s hschema ho s s' a h hschema ho

/-- Where a resolver is found, it belongs to the operation. -/
lemma declares_resolverFor {α : Type} {type : ObjectType} {op : Operation}
    {f : Option (String × String) → Step α}
    (hf : ∀ found, (∀ place, found = some place → schema.placeOf type op = some place) →
      Leads (Declares schema o ks is) (f found)) :
    Leads (Declares schema o ks is) (resolverFor type op >>= f) := by
  rintro s s' a h rfl ho
  obtain ⟨found, s₁, hfound, hrest⟩ := of_bind_ok h
  rw [resolverFor_apply] at hfound
  split at hfound
  · cases hfound
    exact hf none (by simp) _ _ a hrest rfl ho
  · rename_i p hp
    split at hfound
    · cases hfound
      exact hf (some p) (fun place hplace => hplace ▸ hp) _ _ a hrest rfl ho
    · cases hfound
      have hlogged : Grown (Injects s.schema o ks is) (QueriesIndex o is) s
          { s with log := s.log ++ [.noResolver p.1 p.2 op.name] } := .of_resolvers rfl rfl rfl
      exact hlogged.trans (hf none (by simp) _ _ a hrest rfl ho)

lemma declares_injectFor {type : ObjectType} {op : Operation} {snippets : List (Option Stmt)}
    (h : ∀ place, schema.placeOf type op = some place →
      Injects schema o ks is place (snippets.filterMap id)) :
    Leads (Declares schema o ks is) (injectFor type op snippets) := by
  refine declares_resolverFor fun found hfound => ?_
  split
  · exact .bind (inject_grows (h _ (hfound _ rfl))).declares fun _ => .pure _
  · exact .pure _

lemma declares_applyPrimaryKey {k : KeyDecl} (hk : k ∈ ks) :
    Leads (Declares schema o ks is) (applyPrimaryKey k) := by
  have hreplace : Leads (Declares schema o ks is) (replacePrimaryKey k) :=
    .get fun s => .bind (.tableOf _) fun _ => .bind (lift_grows _ _).declares fun _ =>
      (changeTable_grows _ _).declares
  have hinject : ∀ ops, Leads (Declares schema o ks is) (injectPrimary k ops) := by
    intro ops
    induction ops with
    | nil => exact .pure _
    | cons op ops ih =>
      refine declares_get fun s _ ho =>
        .bind (declares_injectFor fun place hplace => ?_) fun _ => ih
      rw [ho]
      exact .primary hk hplace
  exact .bind hreplace fun _ => hinject _

lemma declares_appendIndex (i : IndexDecl) : Leads (Declares schema o ks is) (appendIndex i) := by
  refine .get fun s => .bind (.tableOf _) fun table => .bind (lift_grows _ _).declares fun _ => ?_
  dsimp only
  have hplace : ∀ (isLocal : Bool) (l g : TableChange Event) (e e' : Event),
      Leads (Declares schema o ks is) (if isLocal = true then do
          changeTable i.object.name l
          record e
        else do
          changeTable i.object.name g
          record e') := by
    intro isLocal l g e e'
    cases isLocal <;>
      exact .bind (changeTable_grows _ _).declares fun _ => (record_grows _).declares
  split
  · split
    · exact .throw_bind _ _
    · exact .bind (lift_grows _ _).declares fun _ => hplace _ _ _ _ _
  · exact .bind (lift_grows _ _).declares fun _ => hplace _ _ _ _ _

lemma declares_injectIndex {i : IndexDecl} (hi : i ∈ is) (ops : List Operation) :
    Leads (Declares schema o ks is) (injectIndex i ops) := by
  induction ops with
  | nil => exact .pure _
  | cons op ops ih =>
    refine declares_get fun s _ ho => declares_resolverFor fun found hfound => ?_
    split
    · dsimp only
      split
      · rename_i hany
        rw [ho] at hany
        rw [ho]
        have hindex : Injects schema o ks is _ _ := .index hi (hfound _ rfl) hany
        exact .bind (inject_grows hindex).declares fun _ => ih
      · exact ih
    · exact ih

lemma declares_makeQueryResolver {i : IndexDecl} (hi : i ∈ is) :
    Leads (Declares schema o ks is) (makeQueryResolver i) := by
  refine declares_get fun s _ ho => ?_
  dsimp only
  split
  · exact .throw _
  · exact .throw _
  · refine .bind (.tableOf _) fun _ => ?_
    split
    · exact .throw_bind _ _
    · refine .bind (addResolver_grows ⟨rfl, ⟨i, hi, _, rfl, ?_⟩, ⟨_, rfl, rfl⟩⟩).declares fun _ =>
        .bind (record_grows _).declares fun _ => .pure _
      rw [ho]
      rfl

lemma declares_applyIndexes {js : List IndexDecl} (h : ∀ i ∈ js, i ∈ is) :
    Leads (Declares schema o ks is) (applyIndexes js) := by
  induction js with
  | nil => exact .pure _
  | cons i js ih =>
    have hi : i ∈ is := h i (by simp)
    refine .bind (.bind (declares_appendIndex i) fun _ => .bind (declares_injectIndex hi _)
      fun _ => ?_) fun _ => ih fun j hj => h j (by simp [hj])
    split
    · exact .pure _
    · exact .pure _
    · exact .bind (declares_makeQueryResolver hi) fun _ => .pure _

lemma declares_transformType {d : TypeDecls} (hkeys : ∀ k ∈ d.primaryKeys, k ∈ ks)
    (hindexes : ∀ i ∈ d.indexes, i ∈ is) :
    Leads (Declares schema o ks is) (transformType d) := by
  unfold transformType
  split
  · exact .throw _
  · refine .bind (record_grows _).declares fun _ => ?_
    split
    · rename_i hhead
      exact .bind (declares_applyPrimaryKey (hkeys _ (List.mem_of_mem_head? hhead))) fun _ =>
        declares_applyIndexes hindexes
    · exact declares_applyIndexes hindexes

end Declarations

/-- **A transformation adds known templates and takes none away.** -/
theorem transform_grows {ks : List KeyDecl} {is : List IndexDecl} {s s' : Session}
    (h : transform ks is s = .ok () s') :
    Grown (Injects s.schema s.options ks is) (QueriesIndex s.options is) s s' := by
  have htypes : ∀ ds : List TypeDecls, (∀ d ∈ ds, (∀ k ∈ d.primaryKeys, k ∈ ks) ∧
      ∀ i ∈ d.indexes, i ∈ is) →
        Leads (Declares s.schema s.options ks is) (transformTypes ds) := by
    intro ds hds
    induction ds with
    | nil => exact .pure _
    | cons d ds ih =>
      obtain ⟨hkeys, hindexes⟩ := hds d (by simp)
      exact .bind (declares_transformType hkeys hindexes) fun _ =>
        ih fun d hd => hds d (by simp [hd])
  refine htypes (byType ks is) (fun d hd => ?_) s s' () h rfl rfl
  obtain ⟨type, -, rfl⟩ := List.mem_map.mp hd
  exact ⟨fun k hk => (List.mem_filter.mp hk).1, fun i hi => (List.mem_filter.mp hi).1⟩

end Session

end TableKeys
