/-
# What the steps for one type touch

The declarations of a type are put into effect on a part of the session: the table of the type,
the resolvers that are registered under its name, and the resolvers of its operations
(`Footprint`). A step is confined to a footprint if it leaves everything else as it is and if
nothing else matters to it: in a session that agrees on the footprint it goes the same way
(`Confined`).

* `Confined.bind`, `Confined.get`: what is made of confined steps is confined;
* `confined_transformType`: putting the declarations of a type into effect is confined.
-/
import TableKeys.Proofs.TableRun

namespace TableKeys.Session

open Template Snippet

/-- What no step of a transformation changes: the schema, the options and the data sources. -/
structure SameSetting (s s' : Session) : Prop where
  schema : s.schema = s'.schema
  options : s.options = s'.options
  dataSources : s.dataSources = s'.dataSources

namespace SameSetting

variable {s s' s'' : Session}

lemma refl (s : Session) : s.SameSetting s :=
  ⟨rfl, rfl, rfl⟩

lemma symm (h : s.SameSetting s') : s'.SameSetting s :=
  ⟨h.schema.symm, h.options.symm, h.dataSources.symm⟩

lemma trans (h : s.SameSetting s') (h' : s'.SameSetting s'') : s.SameSetting s'' :=
  ⟨h.schema.trans h'.schema, h.options.trans h'.options, h.dataSources.trans h'.dataSources⟩

end SameSetting

/-- A part of a session with a certain schema: what belongs to a type of this name and to the
operations on these object types. -/
structure Footprint where
  schema : Schema
  type : String
  objects : List ObjectType

namespace Footprint

/-- The place is that of an operation. -/
def Serves (f : Footprint) (p : String × String) : Prop :=
  ∃ object ∈ f.objects, ∃ op, f.schema.placeOf object op = some p

/-- The place is one of the footprint. -/
def Uses (f : Footprint) (p : String × String) : Prop :=
  p.1 = f.type ∨ f.Serves p

/-- The places at which a resolver may change: those under the name of the type, and those of
operations where there is a resolver. -/
def Writes (f : Footprint) (s : Session) (p : String × String) : Prop :=
  p.1 = f.type ∨ f.Serves p ∧ s.resolvers.has p = true

/-- The sessions do not differ on the footprint. -/
structure Agree (f : Footprint) (s r : Session) : Prop where
  setting : s.SameSetting r
  table : s.tables.get? f.type = r.tables.get? f.type
  resolver : ∀ p, f.Uses p → s.resolvers.get? p = r.resolvers.get? p

/-- The second session is the first one apart from the footprint. -/
structure Frame (f : Footprint) (s s' : Session) : Prop where
  setting : s.SameSetting s'
  table : ∀ type, type ≠ f.type → s'.tables.get? type = s.tables.get? type
  resolver : ∀ p, ¬ f.Writes s p → s'.resolvers.get? p = s.resolvers.get? p

variable {f : Footprint} {s s' s'' r : Session}

lemma Writes.uses {p : String × String} (hp : f.Writes s p) : f.Uses p :=
  hp.imp_right And.left

namespace Frame

lemma refl (f : Footprint) (s : Session) : f.Frame s s :=
  ⟨.refl s, fun _ _ => rfl, fun _ _ => rfl⟩

/-- A resolver that is new stands under the name of the type. -/
lemma writes (h : f.Frame s s') {p : String × String} (hp : f.Writes s' p) : f.Writes s p := by
  rcases hp with htype | ⟨hserves, hhas⟩
  · exact .inl htype
  · -- a place of an operation where there was no resolver has none now
    by_contra hnot
    refine hnot (.inr ⟨hserves, ?_⟩)
    rw [Entries.has, ← h.resolver p hnot]
    exact hhas

lemma trans (h : f.Frame s s') (h' : f.Frame s' s'') : f.Frame s s'' where
  setting := h.setting.trans h'.setting
  table type htype := (h'.table type htype).trans (h.table type htype)
  resolver p hp := (h'.resolver p fun hp' => hp (h.writes hp')).trans (h.resolver p hp)

/-- The table of the type and the log may change. -/
lemma put_table (f : Footprint) (s : Session) (t : Table) (log : List Event) :
    f.Frame s { s with tables := s.tables.put f.type t, log } where
  setting := ⟨rfl, rfl, rfl⟩
  table type htype := by rw [Entries.get?_put, if_neg (Ne.symm htype)]
  resolver _ _ := rfl

/-- A resolver at a place of the footprint may change. -/
lemma put_resolver {p : String × String} (hp : f.Writes s p) (q : Resolver) (log : List Event) :
    f.Frame s { s with resolvers := s.resolvers.put p q, log } where
  setting := ⟨rfl, rfl, rfl⟩
  table _ _ := rfl
  resolver p' hp' := by
    rw [Entries.get?_put, if_neg]
    rintro rfl
    exact hp' hp

end Frame

namespace Agree

lemma put_table (h : f.Agree s r) (t : Table) (log log' : List Event) :
    f.Agree { s with tables := s.tables.put f.type t, log }
      { r with tables := r.tables.put f.type t, log := log' } where
  setting := ⟨h.setting.schema, h.setting.options, h.setting.dataSources⟩
  table := by rw [Entries.get?_put_self, Entries.get?_put_self]
  resolver := h.resolver

lemma put_resolver (h : f.Agree s r) (p : String × String) (q : Resolver)
    (log log' : List Event) :
    f.Agree { s with resolvers := s.resolvers.put p q, log }
      { r with resolvers := r.resolvers.put p q, log := log' } where
  setting := ⟨h.setting.schema, h.setting.options, h.setting.dataSources⟩
  table := h.table
  resolver p' hp' := by rw [Entries.get?_put, Entries.get?_put, h.resolver p' hp']

lemma with_log (h : f.Agree s r) (log log' : List Event) :
    f.Agree { s with log } { r with log := log' } :=
  ⟨⟨h.setting.schema, h.setting.options, h.setting.dataSources⟩, h.table, h.resolver⟩

end Agree

end Footprint

/-! ## Confined steps -/

/-- A step that goes well keeps to the footprint, and goes the same way in every session that
agrees on it. -/
def Confined {α : Type} (f : Footprint) (x : Step α) : Prop :=
  ∀ s a s', s.schema = f.schema → x s = .ok a s' →
    f.Frame s s' ∧ ∀ r, f.Agree s r → ∃ r', x r = .ok a r' ∧ f.Agree s' r'

lemma bind_of_ok {α β : Type} {x : Step α} {F : α → Step β} {s s' : Session} {a : α}
    (h : x s = .ok a s') : (x >>= F) s = F a s' := by
  show EStateM.bind x F s = _
  rw [EStateM.bind, h]

namespace Confined

variable {α β : Type} {f : Footprint}

/-- A step may depend on a result of which something is known. -/
lemma bind_of {x : Step α} {F : α → Step β} {Q : α → Prop} (hx : Confined f x)
    (hQ : ∀ s a s', s.schema = f.schema → x s = .ok a s' → Q a)
    (hF : ∀ a, Q a → Confined f (F a)) : Confined f (x >>= F) := by
  intro s b s' hs h
  obtain ⟨a, s₁, hrun, hrest⟩ := of_bind_ok h
  obtain ⟨hframe, hagree⟩ := hx s a s₁ hs hrun
  have hs₁ : s₁.schema = f.schema := hframe.setting.schema ▸ hs
  obtain ⟨hframe', hagree'⟩ := hF a (hQ s a s₁ hs hrun) s₁ b s' hs₁ hrest
  refine ⟨hframe.trans hframe', fun r hr => ?_⟩
  obtain ⟨r₁, hr₁, h₁⟩ := hagree r hr
  obtain ⟨r', hr', h'⟩ := hagree' r₁ h₁
  exact ⟨r', (bind_of_ok hr₁).trans hr', h'⟩

lemma bind {x : Step α} {F : α → Step β} (hx : Confined f x) (hF : ∀ a, Confined f (F a)) :
    Confined f (x >>= F) :=
  hx.bind_of (Q := fun _ => True) (fun _ _ _ _ _ => trivial) fun a _ => hF a

lemma pure (a : α) : Confined f (Pure.pure a : Step α) := by
  intro s b s' _ h
  cases h
  exact ⟨.refl f s, fun r hr => ⟨r, rfl, hr⟩⟩

lemma throw (e : SessionError) : Confined f (MonadExcept.throw e : Step α) := by
  intro s b s' _ h
  cases h

lemma throw_bind (e : SessionError) (F : α → Step β) :
    Confined f (MonadExcept.throw e >>= F) := by
  intro s b s' _ h
  cases h

/-- What is read from the session may depend on what never changes. -/
lemma get {F : Session → Step α} (hF : ∀ s : Session, s.schema = f.schema → Confined f (F s))
    (hsame : ∀ s r : Session, s.SameSetting r → F s = F r) :
    Confined f (MonadState.get >>= F) := by
  intro s b s' hs h
  obtain ⟨hframe, hagree⟩ := hF s hs s b s' hs h
  refine ⟨hframe, fun r hr => ?_⟩
  obtain ⟨r', hr', h'⟩ := hagree r hr
  rw [hsame s r hr.setting] at hr'
  exact ⟨r', hr', h'⟩

lemma record (e : Event) : Confined f (Session.record e) := by
  intro s u s' _ h
  cases h
  exact ⟨⟨⟨rfl, rfl, rfl⟩, fun _ _ => rfl, fun _ _ => rfl⟩,
    fun r hr => ⟨_, rfl, hr.with_log _ _⟩⟩

lemma lift {ε : Type} (wrap : ε → SessionError) (x : Except ε α) :
    Confined f (Session.lift wrap x) := by
  cases x with
  | ok a => exact pure a
  | error e => exact throw (wrap e)

end Confined

/-! ## Tables -/

section Tables

variable {f : Footprint} {type : String}

lemma tableOf_of_get? {s : Session} {t : Table} (h : s.tables.get? type = some t) :
    tableOf type s = .ok t s := by
  rw [tableOf_apply, h]

lemma confined_tableOf (htype : type = f.type) : Confined f (tableOf type) := by
  subst htype
  intro s t s' _ h
  obtain ⟨ht, rfl⟩ := tableOf_ok h
  exact ⟨.refl f s, fun r hr => ⟨r, tableOf_of_get? (hr.table ▸ ht), hr⟩⟩

/-- How a change goes depends on the table only. -/
lemma confined_changeTable (htype : type = f.type) (change : TableChange Event) :
    Confined f (changeTable type change) := by
  subst htype
  intro s u s' _ h
  obtain ⟨t, _, htable, hrest⟩ := of_bind_ok h
  obtain ⟨ht, rfl⟩ := tableOf_ok htable
  cases hrun : change.run t with
  | error e t' =>
    simp only [hrun] at hrest
    cases hrest
  | ok e t' =>
    simp only [hrun] at hrest
    cases hrest
    refine ⟨.put_table f s t' _, fun r hr => ⟨_, ?_, hr.put_table t' _ (r.log ++ [e])⟩⟩
    rw [changeTable, bind_of_ok (tableOf_of_get? (hr.table ▸ ht))]
    simp only [hrun]
    rfl

end Tables

/-! ## Resolvers -/

section Resolvers

variable {f : Footprint}

/-- Which resolver is found depends on which ones there are at the places of operations. -/
lemma confined_resolverFor {object : ObjectType} (hobject : object ∈ f.objects) (op : Operation) :
    Confined f (resolverFor object op) := by
  intro s found s' hs h
  rw [resolverFor_apply] at h
  -- in the other session the same branch is taken, for the place is one of the footprint
  have hagrees : ∀ r, f.Agree s r → r.schema.placeOf object op = s.schema.placeOf object op ∧
      ∀ p, s.schema.placeOf object op = some p → r.resolvers.has p = s.resolvers.has p := by
    intro r hr
    refine ⟨by rw [hr.setting.schema], fun p hp => ?_⟩
    have hserves : f.Serves p := ⟨object, hobject, op, hs ▸ hp⟩
    exact (congrArg Option.isSome (hr.resolver p (.inr hserves))).symm
  split at h
  · rename_i hp
    cases h
    refine ⟨.refl f s, fun r hr => ⟨r, ?_, hr⟩⟩
    rw [resolverFor_apply, (hagrees r hr).1, hp]
  · rename_i p hp
    split at h
    · rename_i hhas
      cases h
      refine ⟨.refl f s, fun r hr => ⟨r, ?_, hr⟩⟩
      rw [resolverFor_apply, (hagrees r hr).1, hp]
      exact if_pos (((hagrees r hr).2 p hp).trans hhas)
    · rename_i hhas
      cases h
      refine ⟨⟨⟨rfl, rfl, rfl⟩, fun _ _ => rfl, fun _ _ => rfl⟩, fun r hr =>
        ⟨_, ?_, hr.with_log _ (r.log ++ [.noResolver p.1 p.2 op.name])⟩⟩
      rw [resolverFor_apply, (hagrees r hr).1, hp]
      exact if_neg (((hagrees r hr).2 p hp).symm ▸ hhas)

/-- The place that is found is that of an operation. -/
lemma serves_of_resolverFor {object : ObjectType} (hobject : object ∈ f.objects) {op : Operation}
    {s s' : Session} {found : Option (String × String)} (hs : s.schema = f.schema)
    (h : resolverFor object op s = .ok found s') : ∀ p, found = some p → f.Serves p := by
  rintro p rfl
  rw [resolverFor_apply] at h
  split at h
  · cases h
  · rename_i p' hp
    split at h
    · cases h
      exact ⟨object, hobject, op, hs ▸ hp⟩
    · cases h

/-- A step that depends on the resolver for an operation. -/
lemma confined_resolverFor_bind {α : Type} {object : ObjectType} (hobject : object ∈ f.objects)
    {op : Operation} {F : Option (String × String) → Step α} (hnone : Confined f (F none))
    (hsome : ∀ p, f.Serves p → Confined f (F (some p))) :
    Confined f (resolverFor object op >>= F) := by
  refine (confined_resolverFor hobject op).bind_of
    (fun _ _ _ hs h => serves_of_resolverFor hobject hs h) fun found hfound => ?_
  cases found with
  | none => exact hnone
  | some p => exact hsome p (hfound p rfl)

lemma confined_inject {p : String × String} (hp : f.Serves p) (snippets : List (Option Node)) :
    Confined f (inject p snippets) := by
  intro s name s' _ h
  rw [inject, get_bind] at h
  cases hq : s.resolvers.get? p with
  | none =>
    rw [hq] at h
    cases h
    refine ⟨.refl f s, fun r hr => ⟨r, ?_, hr⟩⟩
    rw [inject, get_bind, ← hr.resolver p (.inr hp), hq]
    rfl
  | some q =>
    rw [hq] at h
    cases h
    have hwrites : f.Writes s p := .inr ⟨hp, by rw [Entries.has, hq]; rfl⟩
    let stored := q.placed s.options.slot (q.snippetTemplate snippets)
    let e := Event.snippetsInjected q.typeName q.fieldName s.options.slot stored.name
    refine ⟨.put_resolver hwrites _ _, fun r hr =>
      ⟨_, ?_, hr.put_resolver p _ _ (r.log ++ [e])⟩⟩
    rw [inject, get_bind, ← hr.resolver p (.inr hp), hq, ← hr.setting.options]
    rfl

/-- Whether a resolver can be registered under a type depends on which ones are. -/
lemma confined_addResolver {type : String} (htype : type = f.type) (field : String)
    (q : Resolver) : Confined f (addResolver type field q) := by
  intro s u s' _ h
  rw [addResolver, get_bind] at h
  split at h
  · cases h
  · rename_i hhas
    cases h
    refine ⟨.put_resolver (.inl htype) _ _, fun r hr => ⟨_, ?_, hr.put_resolver _ _ _ r.log⟩⟩
    have hhas' : ¬ r.resolvers.has (type, field) = true := by
      rw [Entries.has, ← hr.resolver (type, field) (.inl htype)]
      exact hhas
    rw [addResolver, get_bind, if_neg hhas']
    rfl

end Resolvers

/-! ## Declarations -/

section Declarations

variable {f : Footprint} {k : KeyDecl} {i : IndexDecl}

/-- The declaration concerns the footprint. -/
structure Footprint.Covers (f : Footprint) (k : KeyDecl) : Prop where
  type : k.object.name = f.type
  object : k.object ∈ f.objects

lemma confined_injectPrimary (hk : f.Covers k) (ops : List Operation) :
    Confined f (injectPrimary k ops) := by
  induction ops with
  | nil => exact .pure ()
  | cons op ops ih =>
    refine .get (fun s _ => .bind ?_ fun _ => ih) ?_
    · exact confined_resolverFor_bind hk.object (.pure ()) fun p hp =>
        .bind (confined_inject hp _) fun _ => .pure ()
    · intro s r h
      simp only [h.options]

lemma confined_replacePrimaryKey (hk : f.Covers k) : Confined f (replacePrimaryKey k) := by
  refine .get (fun s _ => ?_) ?_
  · exact .bind (confined_tableOf hk.type) fun _ => .bind (.lift _ _) fun _ =>
      confined_changeTable hk.type _
  · intro s r h
    simp only [h.schema, h.options]

lemma confined_applyPrimaryKey (hk : f.Covers k) : Confined f (applyPrimaryKey k) :=
  .bind (confined_replacePrimaryKey hk) fun _ => confined_injectPrimary hk _

lemma confined_appendIndex (hi : f.Covers i.toKeyDecl) : Confined f (appendIndex i) := by
  refine .get (fun s _ => ?_) ?_
  · refine .bind (confined_tableOf hi.type) fun table => .bind (.lift _ _) fun _ => ?_
    dsimp only
    -- both checks of the partition field end in the choice between a local and a global index
    have hplace : ∀ (isLocal : Bool) (l g : TableChange Event) (e e' : Event),
        Confined f (if isLocal = true then do
            changeTable i.object.name l
            record e
          else do
            changeTable i.object.name g
            record e') := by
      intro isLocal l g e e'
      cases isLocal <;> exact .bind (confined_changeTable hi.type _) fun _ => .record _
    split
    · split
      · exact .throw_bind _ _
      · exact .bind (.lift _ _) fun _ => hplace _ _ _ _ _
    · exact .bind (.lift _ _) fun _ => hplace _ _ _ _ _
  · intro s r h
    simp only [h.schema, h.options]

lemma confined_injectIndex (hi : f.Covers i.toKeyDecl) (ops : List Operation) :
    Confined f (injectIndex i ops) := by
  induction ops with
  | nil => exact .pure ()
  | cons op ops ih =>
    refine .get (fun s _ => ?_) ?_
    · refine confined_resolverFor_bind hi.object ih fun p hp => ?_
      dsimp only
      split
      · exact .bind (confined_inject hp _) fun _ => ih
      · exact ih
    · intro s r h
      simp only [h.options]

lemma confined_makeQueryResolver (hi : f.Covers i.toKeyDecl) :
    Confined f (makeQueryResolver i) := by
  refine .get (fun s _ => ?_) ?_
  · dsimp only
    split
    · exact .throw _
    · exact .throw _
    · refine .bind (confined_tableOf hi.type) fun _ => ?_
      split
      · exact .throw_bind _ _
      · exact .bind (confined_addResolver hi.type _ _) fun _ =>
          .bind (.record _) fun _ => .pure _
  · intro s r h
    simp only [h.schema, h.options, h.dataSources]

lemma confined_applyIndex (hi : f.Covers i.toKeyDecl) : Confined f (applyIndex i) := by
  refine .bind (confined_appendIndex hi) fun _ => .bind (confined_injectIndex hi _) fun _ => ?_
  split
  · exact .pure ()
  · exact .pure ()
  · exact .bind (confined_makeQueryResolver hi) fun _ => .pure ()

lemma confined_applyIndexes {is : List IndexDecl} (his : ∀ i ∈ is, f.Covers i.toKeyDecl) :
    Confined f (applyIndexes is) := by
  induction is with
  | nil => exact .pure ()
  | cons i is ih =>
    refine .bind (confined_applyIndex (his i (by simp))) fun _ => ih fun j hj => his j ?_
    simp [hj]

end Declarations

/-! ## Whole types -/

section Types

variable {ks : List KeyDecl} {is : List IndexDecl}

/-- A type is added to others if it is not there. -/
def addNew (types : List String) (type : String) : List String :=
  if types.contains type then types else types ++ [type]

lemma declaredTypes_eq (declarations : List KeyDecl) :
    declaredTypes declarations = (declarations.map (·.object.name)).foldl addNew [] := rfl

lemma mem_addNew {types : List String} {type t : String} :
    t ∈ addNew types type ↔ t ∈ types ∨ t = type := by
  unfold addNew
  split
  · rename_i hmem
    have hmem' : type ∈ types := by simpa using hmem
    constructor
    · exact Or.inl
    · rintro (h | rfl)
      · exact h
      · exact hmem'
  · rw [List.mem_append, List.mem_singleton]

lemma nodup_addNew {types : List String} (h : types.Nodup) (type : String) :
    (addNew types type).Nodup := by
  unfold addNew
  split
  · exact h
  · rename_i hmem
    have hmem' : type ∉ types := by simpa using hmem
    refine List.nodup_append.mpr ⟨h, by simp, ?_⟩
    intro t ht u hu
    rw [List.mem_singleton.mp hu]
    rintro rfl
    exact hmem' ht

/-- Types are taken one by one: no type is taken twice. -/
lemma declaredTypes_nodup (declarations : List KeyDecl) : (declaredTypes declarations).Nodup := by
  have hfold : ∀ names types : List String, types.Nodup → (names.foldl addNew types).Nodup := by
    intro names
    induction names with
    | nil => exact fun _ => id
    | cons name names ih => exact fun types htypes => ih _ (nodup_addNew htypes name)
  exact hfold _ [] List.nodup_nil

/-- The types that are taken are the declared ones. -/
lemma mem_declaredTypes {declarations : List KeyDecl} {type : String} :
    type ∈ declaredTypes declarations ↔ ∃ k ∈ declarations, k.object.name = type := by
  have hfold : ∀ names types : List String,
      type ∈ names.foldl addNew types ↔ type ∈ types ∨ type ∈ names := by
    intro names
    induction names with
    | nil => simp
    | cons name names ih =>
      intro types
      rw [List.foldl_cons, ih, mem_addNew, List.mem_cons, or_assoc]
  rw [declaredTypes_eq, hfold, List.mem_map]
  simp

/-- The declarations of a type. -/
def TypeDecls.declarations (d : TypeDecls) : List KeyDecl :=
  d.primaryKeys ++ d.indexes.map IndexDecl.toKeyDecl

/-- What belongs to a type and to the operations on the object types of its declarations. -/
def TypeDecls.footprint (d : TypeDecls) (schema : Schema) : Footprint where
  schema
  type := d.type
  objects := d.declarations.map KeyDecl.object

/-- What is declared for a type of this name. -/
def declaredOf (ks : List KeyDecl) (is : List IndexDecl) (type : String) : TypeDecls where
  type
  primaryKeys := ks.filter (·.object.name == type)
  indexes := is.filter (·.object.name == type)

lemma byType_eq (ks : List KeyDecl) (is : List IndexDecl) :
    byType ks is =
      (declaredTypes (ks ++ is.map IndexDecl.toKeyDecl)).map (declaredOf ks is) := rfl

lemma mem_declarations_declaredOf {type : String} {k : KeyDecl} :
    k ∈ (declaredOf ks is type).declarations ↔
      k ∈ ks ++ is.map IndexDecl.toKeyDecl ∧ k.object.name = type := by
  simp only [TypeDecls.declarations, declaredOf, List.mem_append, List.mem_map, List.mem_filter,
    beq_iff_eq]
  constructor
  · rintro (⟨hk, htype⟩ | ⟨i, ⟨hi, htype⟩, rfl⟩)
    · exact ⟨.inl hk, htype⟩
    · exact ⟨.inr ⟨i, hi, rfl⟩, htype⟩
  · rintro ⟨hk | ⟨i, hi, rfl⟩, htype⟩
    · exact .inl ⟨hk, htype⟩
    · exact .inr ⟨i, ⟨hi, htype⟩, rfl⟩

/-- For other names nothing is declared. -/
lemma declaredOf_undeclared {type : String}
    (h : type ∉ declaredTypes (ks ++ is.map IndexDecl.toKeyDecl)) :
    (declaredOf ks is type).primaryKeys = [] ∧ (declaredOf ks is type).indexes = [] := by
  constructor
  · refine List.filter_eq_nil_iff.mpr fun k hk hname => h (mem_declaredTypes.mpr ?_)
    exact ⟨k, List.mem_append_left _ hk, by simpa using hname⟩
  · refine List.filter_eq_nil_iff.mpr fun i hi hname => h (mem_declaredTypes.mpr ?_)
    exact ⟨i.toKeyDecl, List.mem_append_right _ (List.mem_map_of_mem hi), by simpa using hname⟩

/-- The declarations are of the type. -/
def TypeDecls.Proper (d : TypeDecls) : Prop :=
  ∀ k ∈ d.declarations, k.object.name = d.type

lemma proper_declaredOf (ks : List KeyDecl) (is : List IndexDecl) (type : String) :
    (declaredOf ks is type).Proper :=
  fun _ hk => (mem_declarations_declaredOf.mp hk).2

lemma proper_of_mem_byType (ks : List KeyDecl) (is : List IndexDecl) :
    ∀ d ∈ byType ks is, d.Proper := by
  intro d hd
  obtain ⟨type, -, rfl⟩ := List.mem_map.mp hd
  exact proper_declaredOf ks is type

lemma TypeDecls.Proper.covers {d : TypeDecls} (hd : d.Proper) (schema : Schema) {k : KeyDecl}
    (hk : k ∈ d.declarations) : (d.footprint schema).Covers k :=
  ⟨hd k hk, List.mem_map_of_mem hk⟩

/-- A type that is put into effect has at most one primary key, which comes before its indexes. -/
lemma transformType_ok {d : TypeDecls} {s s' : Session} (h : transformType d s = .ok () s') :
    ∃ log, (d.primaryKeys = [] ∧ applyIndexes d.indexes { s with log } = .ok () s') ∨
      ∃ k s₁, d.primaryKeys = [k] ∧ applyPrimaryKey k { s with log } = .ok () s₁ ∧
        applyIndexes d.indexes s₁ = .ok () s' := by
  obtain ⟨type, keys, indexes⟩ := d
  match keys with
  | [] => exact ⟨_, .inl ⟨rfl, h⟩⟩
  | [k] =>
    obtain ⟨_, s₀, hrecord, hrest⟩ := of_bind_ok h
    obtain ⟨_, s₁, hkey, hindexes⟩ := of_bind_ok hrest
    cases hrecord
    exact ⟨_, .inr ⟨k, s₁, rfl, hkey, hindexes⟩⟩
  | _ :: _ :: _ => cases h

/-- **A type is transformed on its own footprint**: its table, the resolvers under its name and
those of its operations are all that changes and all that matters. -/
theorem confined_transformType {d : TypeDecls} (hd : d.Proper) (schema : Schema) :
    Confined (d.footprint schema) (transformType d) := by
  have hindexes : Confined (d.footprint schema) (applyIndexes d.indexes) :=
    confined_applyIndexes fun i hi =>
      hd.covers schema (List.mem_append_right _ (List.mem_map_of_mem hi))
  have hkeys : ∀ k ∈ d.primaryKeys, (d.footprint schema).Covers k :=
    fun k hk => hd.covers schema (List.mem_append_left _ hk)
  unfold transformType
  split
  · exact .throw _
  · refine .bind (.record _) fun _ => ?_
    split
    · rename_i k hk
      have hcovers := hkeys k (List.mem_of_mem_head? hk)
      exact .bind (confined_applyPrimaryKey hcovers) fun _ => hindexes
    · exact hindexes

end Types

end TableKeys.Session
