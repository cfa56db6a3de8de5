/-
# Tables from first to last

A table is made, then its primary key is replaced and indexes are added, directly or because
a declaration is put into effect; this may happen any number of times in any order (`Reached`).
Its definitions are right all the time, and every index that was added is found
(`reached_consistent`). So it is for the tables of a session (`transform_reached`).
-/
import TableKeys.Proofs.Definitions
import TableKeys.Proofs.SlotContents

namespace TableKeys

namespace KeyDecl

variable {k : KeyDecl} {schema : Schema} {o : Options} {definitions : List KeyAttribute}

lemma attributeTypes_eq_mapM (schema : Schema) (fs : List FieldDef) :
    attributeTypes schema fs = fs.mapM schema.attributeType := by
  induction fs with
  | nil => rfl
  | cons f fs ih => rw [attributeTypes, ih, List.mapM_cons]

/-- The definitions of a declared key: that of the partition field and, if there are sort fields,
another one, which is of the field itself if there is one and of a text if there are more. -/
lemma attributes_cases (h : k.attributes schema o = .ok definitions) :
    ∃ type, schema.attributeType k.partition = .ok type ∧
      ((k.sort = [] ∧ definitions = [⟨k.partition.name, type⟩]) ∨
        (∃ f sortType, k.sort = [f] ∧ schema.attributeType f = .ok sortType ∧
          definitions = [⟨k.partition.name, type⟩, ⟨f.name, sortType⟩]) ∨
        (k.isComposite = true ∧ (∀ f ∈ k.sort, ∃ type, schema.attributeType f = .ok type) ∧
          definitions = [⟨k.partition.name, type⟩, ⟨compositeName o k.sortFields, .s⟩])) := by
  obtain ⟨object, partition, sort, hnodup, hpartition⟩ := k
  obtain ⟨type, hp, h⟩ := exists_of_bind_eq_ok h
  refine ⟨type, hp, ?_⟩
  rcases sort with _ | ⟨f, _ | ⟨g, fs⟩⟩
  · obtain rfl := Except.ok.inj h
    exact .inl ⟨rfl, rfl⟩
  · obtain ⟨sortType, hf, h⟩ := exists_of_bind_eq_ok h
    obtain rfl := Except.ok.inj h
    exact .inr (.inl ⟨f, sortType, rfl, hf, rfl⟩)
  · obtain ⟨types, hfs, h⟩ := exists_of_bind_eq_ok h
    obtain rfl := Except.ok.inj h
    rw [attributeTypes_eq_mapM] at hfs
    exact .inr (.inr ⟨by simp [isComposite],
      fun f hf => (mapM_ok_mem hfs f hf).imp fun _ h => h.2, rfl⟩)

/-- The definitions of a key are of the attributes of its key schema. -/
lemma attributes_names (h : k.attributes schema o = .ok definitions) :
    definitions.map KeyAttribute.name = (k.schema o).map KeyElement.name := by
  obtain ⟨object, partition, sort, hnodup, hpartition⟩ := k
  obtain ⟨type, -, h⟩ := attributes_cases h
  rcases sort with _ | ⟨f, _ | ⟨g, fs⟩⟩
  · obtain ⟨-, rfl⟩ | ⟨f, sortType, ⟨⟩, -⟩ | ⟨hcomposite, -⟩ := h
    · rfl
    · cases hcomposite
  · obtain ⟨⟨⟩, -⟩ | ⟨f, sortType, ⟨⟩, -, rfl⟩ | ⟨hcomposite, -⟩ := h
    · rfl
    · cases hcomposite
  · obtain ⟨⟨⟩, -⟩ | ⟨f, sortType, ⟨⟩, -⟩ | ⟨-, -, rfl⟩ := h
    rfl

end KeyDecl

namespace Session

open Table

/-! ## Declarations put into effect on a table -/

/-- The index that a declaration stands for on a table. -/
def placed (s : Session) (i : IndexDecl) (t : Table) : AnyIndex :=
  let attributes := (i.attributes s.schema s.options).toOption.getD []
  let partition := typed attributes i.partition.name
  let sort := (i.sortName? s.options).map (typed attributes)
  if !s.options.globalOnly.toOption.getD false && t.partition.name == partition.name then
    .isLocal { name := i.name, sort }
  else .isGlobal {
    name := i.name
    partition
    sort
    readCapacity := .object [("Ref", .scalar s.options.readCapacityParameter)]
    writeCapacity := .object [("Ref", .scalar s.options.writeCapacityParameter)] }

section Steps

variable {α : Type} {s s' : Session} {t : Table}

lemma tableOf_apply (type : String) (s : Session) : tableOf type s =
    match s.tables.get? type with
    | some table => .ok table s
    | none => .error (.noTable type) s := by
  rw [tableOf, get_bind]
  cases s.tables.get? type <;> rfl

lemma tableOf_ok {type : String} (h : tableOf type s = .ok t s') :
    s.tables.get? type = some t ∧ s = s' := by
  rw [tableOf_apply] at h
  cases htable : s.tables.get? type with
  | none =>
    rw [htable] at h
    cases h
  | some table =>
    rw [htable] at h
    cases h
    exact ⟨rfl, rfl⟩

lemma lift_ok {ε : Type} {wrap : ε → SessionError} {x : Except ε α} {a : α}
    (h : lift wrap x s = .ok a s') : x = .ok a ∧ s = s' := by
  cases x with
  | ok b =>
    cases h
    exact ⟨rfl, rfl⟩
  | error e => cases h

/-- A change of a table that goes well is kept, and the other tables are as before. -/
lemma changeTable_ok {type : String} {change : TableChange Event} {u : Unit}
    (h : changeTable type change s = .ok u s') :
    ∃ t e t', s.tables.get? type = some t ∧ change t = .ok e t' ∧
      s'.tables = s.tables.put type t' := by
  obtain ⟨t, _, htable, hrest⟩ := of_bind_ok h
  obtain ⟨ht, rfl⟩ := tableOf_ok htable
  cases hrun : change.run t with
  | ok e t' =>
    simp only [hrun] at hrest
    cases hrest
    exact ⟨t, e, t', ht, hrun, rfl⟩
  | error e t' =>
    simp only [hrun] at hrest
    cases hrest

lemma replacePrimaryKey_ok {k : KeyDecl} {u : Unit} (h : replacePrimaryKey k s = .ok u s') :
    ∃ t definitions e t', s.tables.get? k.object.name = some t ∧
      k.attributes s.schema s.options = .ok definitions ∧
      Table.replacePrimaryKey (k.schema s.options) definitions t = .ok e t' ∧
      s'.tables = s.tables.put k.object.name t' := by
  rw [replacePrimaryKey, get_bind] at h
  obtain ⟨_, _, htable, hrest⟩ := of_bind_ok h
  obtain ⟨-, rfl⟩ := tableOf_ok htable
  obtain ⟨definitions, _, hattributes, hrest⟩ := of_bind_ok hrest
  obtain ⟨hdefinitions, rfl⟩ := lift_ok hattributes
  obtain ⟨t, e, t', ht, hrun, hs'⟩ := changeTable_ok hrest
  exact ⟨t, definitions, e, t', ht, hdefinitions, hrun, hs'⟩

/-- Where the key of an index is known, the index goes to the place that fits it. -/
lemma placed_ok {i : IndexDecl} {attributes : List KeyAttribute} {label : String} {u : Unit}
    (hattributes : i.attributes s.schema s.options = .ok attributes)
    (h : (do
      let globalOnly ← lift .flag s.options.globalOnly
      if !globalOnly && t.partition.name == (typed attributes i.partition.name).name then
        changeTable i.object.name (addLocalIndex {
          name := i.name
          sort := (i.sortName? s.options).map (typed attributes) })
        record (.placedAsLocal i.object.name i.name label)
      else
        changeTable i.object.name (addGlobalIndex {
          name := i.name
          partition := typed attributes i.partition.name
          sort := (i.sortName? s.options).map (typed attributes)
          readCapacity := .object [("Ref", .scalar s.options.readCapacityParameter)]
          writeCapacity := .object [("Ref", .scalar s.options.writeCapacityParameter)] })
        record (.placedAsGlobal i.object.name i.name label) : Step Unit) s = .ok u s') :
    ∃ t₀ e t', s.tables.get? i.object.name = some t₀ ∧
      addIndex (s.placed i t) t₀ = .ok e t' ∧ s'.tables = s.tables.put i.object.name t' ∧
      ∃ flag, s.options.globalOnly = .ok flag := by
  obtain ⟨globalOnly, _, hlift, hrest⟩ := of_bind_ok h
  obtain ⟨hflag, rfl⟩ := lift_ok hlift
  split at hrest
  · rename_i hlocal
    obtain ⟨_, s₁, hchange, hrecord⟩ := of_bind_ok hrest
    cases hrecord
    have hplaced : s.placed i t = .isLocal {
        name := i.name
        sort := (i.sortName? s.options).map (typed attributes) } := by
      rw [placed, hattributes, hflag]
      exact if_pos hlocal
    obtain ⟨t₀, e, t', ht₀, hadd, htables⟩ := changeTable_ok hchange
    exact ⟨t₀, e, t', ht₀, by rw [hplaced]; exact hadd, htables, globalOnly, hflag⟩
  · rename_i hglobal
    obtain ⟨_, s₁, hchange, hrecord⟩ := of_bind_ok hrest
    cases hrecord
    have hplaced : s.placed i t = .isGlobal {
        name := i.name
        partition := typed attributes i.partition.name
        sort := (i.sortName? s.options).map (typed attributes)
        readCapacity := .object [("Ref", .scalar s.options.readCapacityParameter)]
        writeCapacity := .object [("Ref", .scalar s.options.writeCapacityParameter)] } := by
      rw [placed, hattributes, hflag]
      exact if_neg hglobal
    obtain ⟨t₀, e, t', ht₀, hadd, htables⟩ := changeTable_ok hchange
    exact ⟨t₀, e, t', ht₀, by rw [hplaced]; exact hadd, htables, globalOnly, hflag⟩

/-- Putting an index into effect adds it to the table of its type, if the flag that decides about
its place can be read. -/
lemma appendIndex_ok {i : IndexDecl} {u : Unit} (h : appendIndex i s = .ok u s') :
    ∃ t e t', s.tables.get? i.object.name = some t ∧
      addIndex (s.placed i t) t = .ok e t' ∧
      s'.tables = s.tables.put i.object.name t' ∧
      ∃ flag, s.options.globalOnly = .ok flag := by
  rw [appendIndex, get_bind] at h
  obtain ⟨t, _, htable, hrest⟩ := of_bind_ok h
  obtain ⟨ht, rfl⟩ := tableOf_ok htable
  obtain ⟨attributes, _, hlift, hrest⟩ := of_bind_ok hrest
  obtain ⟨hattributes, rfl⟩ := lift_ok hlift
  -- the check of a known partition field either fails or leaves the session as it is
  have hplaced : ∃ t₀ e t', s.tables.get? i.object.name = some t₀ ∧
      addIndex (s.placed i t) t₀ = .ok e t' ∧ s'.tables = s.tables.put i.object.name t' ∧
      ∃ flag, s.options.globalOnly = .ok flag := by
    split at hrest
    · split at hrest
      · cases hrest
      · exact placed_ok hattributes hrest
    · exact placed_ok hattributes hrest
  obtain ⟨t₀, e, t', ht₀, hadd⟩ := hplaced
  obtain rfl : t₀ = t := Option.some.inj (ht₀.symm.trans ht)
  exact ⟨t₀, e, t', ht, hadd⟩

end Steps

end Session

namespace Table

/-! ## Runs -/

/-- A planned table as it is before anything is registered. -/
def Plan.table (p : Plan) : Table where
  logicalId := p.logicalId
  partition := p.partition.getD defaultPartition
  sort := p.sort
  attributes := p.attributes
  localIndexes := p.localIndexes
  globalIndexes := p.globalIndexes
  payPerRequestCondition := p.payPerRequestCondition

/-- The tables that come about where every change goes well, with the indexes that were added on
the way. -/
inductive Reached : List AnyIndex → Table → Prop
  | created {p : Plan} {t : Table} (hfits : p.table.Fits) (h : p.create = .ok t) :
      Reached p.table.indexes t
  /-- The definitions that come with the new key are of its attributes and of no others. -/
  | keyReplaced {added : List AnyIndex} {t t' : Table} {schema : List KeyElement}
      {definitions : List KeyAttribute} {e : Event} (ht : Reached added t)
      (hnames : ∀ name, name ∈ definitions.map KeyAttribute.name ↔
        name ∈ schema.map KeyElement.name)
      (h : replacePrimaryKey schema definitions t = .ok e t') : Reached added t'
  | localAdded {added : List AnyIndex} {t t' : Table} {i : LocalIndex} {e : Event}
      (ht : Reached added t) (h : addLocalIndex i t = .ok e t') :
      Reached (added ++ [.isLocal i]) t'
  | globalAdded {added : List AnyIndex} {t t' : Table} {i : GlobalIndex} {e : Event}
      (ht : Reached added t) (h : addGlobalIndex i t = .ok e t') :
      Reached (added ++ [.isGlobal i]) t'
  /-- A declared primary key is put into effect on the table of its type. -/
  | keyDeclared {added : List AnyIndex} {t t' : Table} {k : KeyDecl} {s s' : Session}
      (ht : Reached added t) (hs : s.tables.get? k.object.name = some t)
      (h : Session.replacePrimaryKey k s = .ok () s')
      (hs' : s'.tables.get? k.object.name = some t') : Reached added t'
  /-- A declared index is put into effect on the table of its type. -/
  | indexDeclared {added : List AnyIndex} {t t' : Table} {i : IndexDecl} {s s' : Session}
      (ht : Reached added t) (hs : s.tables.get? i.object.name = some t)
      (h : Session.appendIndex i s = .ok () s')
      (hs' : s'.tables.get? i.object.name = some t') : Reached (added ++ [s.placed i t]) t'

/-- **The invariant of a run**: the table is consistent and has exactly the indexes that were
added. -/
structure Invariant (added : List AnyIndex) (t : Table) : Prop where
  consistent : t.Consistent
  indexes : ∀ i, i ∈ t.indexes ↔ i ∈ added

namespace Invariant

variable {added : List AnyIndex} {t t' : Table} {e : Event}

lemma created {p : Plan} (hfits : p.table.Fits) (h : p.create = .ok t) :
    Invariant p.table.indexes t :=
  ⟨hfits.create h, fun i => by rw [indexes_create h]; rfl⟩

lemma keyReplaced (ht : Invariant added t) {schema : List KeyElement}
    {definitions : List KeyAttribute}
    (hnames : ∀ name, name ∈ definitions.map KeyAttribute.name ↔
      name ∈ schema.map KeyElement.name)
    (h : replacePrimaryKey schema definitions t = .ok e t') : Invariant added t' :=
  ⟨ht.consistent.replacePrimaryKey hnames h,
    fun i => by rw [indexes_replacePrimaryKey h, ht.indexes]⟩

end Invariant

end Table

namespace Session

open Table Template Snippet

/-! ## The tables of a session -/

/-- Every table of the session came about by changes that went well. -/
def TablesReached (s : Session) : Prop :=
  ∀ type t, s.tables.get? type = some t → ∃ added, Reached added t

/-- A step that goes well leads to a related session. -/
def Leads {α : Type} (R : Session → Session → Prop) (x : Step α) : Prop :=
  ∀ s s' a, x s = .ok a s' → R s s'

namespace Leads

variable {α β : Type} {R R' : Session → Session → Prop}

lemma mono {x : Step α} (hx : Leads R x) (h : ∀ s s', R s s' → R' s s') : Leads R' x :=
  fun s s' a hrun => h s s' (hx s s' a hrun)

lemma bind [IsTrans Session R] {x : Step α} {f : α → Step β} (hx : Leads R x)
    (hf : ∀ a, Leads R (f a)) : Leads R (x >>= f) := by
  intro s s' b h
  obtain ⟨a, s₁, hrun, hrest⟩ := of_bind_ok h
  exact IsTrans.trans _ _ _ (hx s s₁ a hrun) (hf a s₁ s' b hrest)

lemma get {f : Session → Step α} (hf : ∀ s, Leads R (f s)) : Leads R (MonadState.get >>= f) :=
  fun s s' a h => hf s s s' a h

lemma throw (e : SessionError) : Leads R (MonadExcept.throw e : Step α) := by
  intro s s' b h
  cases h

lemma throw_bind (e : SessionError) (f : α → Step β) :
    Leads R (MonadExcept.throw e >>= f) := by
  intro s s' b h
  cases h

lemma pure [Std.Refl R] (a : α) : Leads R (Pure.pure a : Step α) := by
  intro s s' b h
  cases h
  exact Std.Refl.refl s

lemma tableOf [Std.Refl R] (type : String) : Leads R (Session.tableOf type) := by
  intro s s' t h
  obtain ⟨-, rfl⟩ := tableOf_ok h
  exact Std.Refl.refl s

end Leads

/-! ### Steps for resolvers -/

/-- The sessions have the same tables. -/
def SameTables (s s' : Session) : Prop :=
  s'.tables = s.tables

instance : Std.Refl SameTables := ⟨fun _ => rfl⟩

instance : IsTrans Session SameTables := ⟨fun _ _ _ h h' => h'.trans h⟩

lemma record_tables (e : Event) : Leads SameTables (record e) := by
  intro s s' u h
  cases h
  rfl

lemma resolverFor_tables (type : ObjectType) (op : Operation) :
    Leads SameTables (resolverFor type op) := by
  intro s s' found h
  rw [resolverFor_apply] at h
  split at h
  · cases h
    rfl
  · split at h <;>
    · cases h
      rfl

lemma inject_tables (place : String × String) (snippets : List (Option Node)) :
    Leads SameTables (inject place snippets) := by
  intro s s' name h
  obtain ⟨-, rfl⟩ | ⟨r, e, -, rfl⟩ := inject_ok h <;> rfl

lemma addResolver_tables (type field : String) (r : Resolver) :
    Leads SameTables (addResolver type field r) := by
  intro s s' u h
  obtain ⟨-, rfl⟩ := addResolver_ok h
  rfl

lemma injectFor_tables (type : ObjectType) (op : Operation) (snippets : List (Option Stmt)) :
    Leads SameTables (injectFor type op snippets) := by
  refine .bind (resolverFor_tables type op) fun found => ?_
  split
  · exact .bind (inject_tables _ _) fun _ => .pure _
  · exact .pure _

lemma injectPrimary_tables (k : KeyDecl) (ops : List Operation) :
    Leads SameTables (injectPrimary k ops) := by
  induction ops with
  | nil => exact .pure _
  | cons op ops ih => exact .get fun s => .bind (injectFor_tables _ _ _) fun _ => ih

lemma injectIndex_tables (i : IndexDecl) (ops : List Operation) :
    Leads SameTables (injectIndex i ops) := by
  induction ops with
  | nil => exact .pure _
  | cons op ops ih =>
    refine .get fun s => .bind (resolverFor_tables _ _) fun found => ?_
    split
    · dsimp only
      split
      · exact .bind (inject_tables _ _) fun _ => ih
      · exact ih
    · exact ih

lemma makeQueryResolver_tables (i : IndexDecl) : Leads SameTables (makeQueryResolver i) := by
  refine .get fun s => ?_
  dsimp only
  split
  · exact .throw _
  · exact .throw _
  · refine .bind (.tableOf _) fun _ => ?_
    split
    · exact .throw_bind _ _
    · exact .bind (addResolver_tables _ _ _) fun _ => .bind (record_tables _) fun _ => .pure _

lemma updateResolversForIndex_tables (i : IndexDecl) :
    Leads SameTables (updateResolversForIndex i) := by
  refine .bind (injectIndex_tables i _) fun _ => ?_
  split
  · exact .pure _
  · exact .pure _
  · exact .bind (makeQueryResolver_tables i) fun _ => .pure _

/-! ### Steps for tables -/

/-- If every table came about by changes that went well, so did those of the next session. -/
def KeepsReached (s s' : Session) : Prop :=
  s.TablesReached → s'.TablesReached

instance : Std.Refl KeepsReached := ⟨fun _ => id⟩

instance : IsTrans Session KeepsReached := ⟨fun _ _ _ h h' hs => h' (h hs)⟩

lemma SameTables.keepsReached {s s' : Session} (h : SameTables s s') : KeepsReached s s' :=
  fun hs type t ht => hs type t (h ▸ ht)

lemma TablesReached.put {s s' : Session} (hs : s.TablesReached) (type : String) {t : Table}
    {added : List AnyIndex} (ht : Reached added t) (h : s'.tables = s.tables.put type t) :
    s'.TablesReached := by
  intro type' t' ht'
  rw [h, Entries.get?_put] at ht'
  split at ht'
  · exact ⟨added, Option.some.inj ht' ▸ ht⟩
  · exact hs type' t' ht'

/-- A new table for a type counts as made from a plan. -/
lemma keeps_addModelTable (type : String) : Leads KeepsReached (addModelTable type) := by
  intro s s' a h hs
  have hnew : Table.Plan.create {
      logicalId := tableId type
      payPerRequestCondition := s.options.payPerRequestCondition } = .ok {
        logicalId := tableId type
        partition := Table.defaultPartition
        attributes := [Table.defaultPartition]
        payPerRequestCondition := s.options.payPerRequestCondition } := rfl
  refine hs.put type (.created (.of_nil rfl rfl rfl) hnew) ?_
  cases h
  rfl

lemma keeps_replacePrimaryKey (k : KeyDecl) : Leads KeepsReached (replacePrimaryKey k) := by
  intro s s' u h hs
  obtain ⟨t, definitions, e, t', ht, hdefinitions, hrun, htables⟩ := replacePrimaryKey_ok h
  obtain ⟨added, hreached⟩ := hs _ t ht
  have hnames := KeyDecl.attributes_names hdefinitions
  exact hs.put _ (.keyReplaced hreached (fun name => by rw [hnames]) hrun) htables

lemma keeps_appendIndex (i : IndexDecl) : Leads KeepsReached (appendIndex i) := by
  intro s s' u h hs
  obtain ⟨t, e, t', ht, hadd, htables, -⟩ := appendIndex_ok h
  obtain ⟨added, hreached⟩ := hs _ t ht
  refine hs.put _ (.indexDeclared hreached ht h ?_) htables
  rw [htables, Entries.get?_put_self]

lemma keeps_applyIndexes (is : List IndexDecl) : Leads KeepsReached (applyIndexes is) := by
  have hresolvers : ∀ s s', SameTables s s' → KeepsReached s s' := fun _ _ h => h.keepsReached
  induction is with
  | nil => exact .pure _
  | cons i is ih =>
    refine .bind (.bind (keeps_appendIndex i) fun _ => ?_) fun _ => ih
    exact (updateResolversForIndex_tables i).mono hresolvers

lemma keeps_transformType (d : TypeDecls) : Leads KeepsReached (transformType d) := by
  have hresolvers : ∀ s s', SameTables s s' → KeepsReached s s' := fun _ _ h => h.keepsReached
  unfold transformType
  split
  · exact .throw _
  · refine .bind ((record_tables _).mono hresolvers) fun _ => ?_
    split
    · refine .bind (.bind (keeps_replacePrimaryKey _) fun _ => ?_) fun _ => keeps_applyIndexes _
      exact (injectPrimary_tables _ _).mono hresolvers
    · exact keeps_applyIndexes _

/-- **A transformation leaves only such tables behind.** Whatever is declared, if it is put into
effect, the tables are as consistent as if they had been changed by hand. -/
theorem transform_reached {ks : List KeyDecl} {is : List IndexDecl} (hs : s.TablesReached)
    (h : transform ks is s = .ok () s') : s'.TablesReached := by
  have hkeeps : ∀ ds, Leads KeepsReached (transformTypes ds) := by
    intro ds
    induction ds with
    | nil => exact .pure _
    | cons d ds ih => exact .bind (keeps_transformType d) fun _ => ih
  exact hkeeps _ s s' () h hs

end Session

end TableKeys
