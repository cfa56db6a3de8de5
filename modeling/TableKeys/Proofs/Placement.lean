/-
# Where the indexes of a type end up

A declared index is placed while its table may still change, but its key schema is read off the
table at the end. Since a type has its primary key before its indexes, both agree: when all
declarations have been put into effect, the table of each type has exactly the declared indexes,
in order, local ones where they share the partition attribute of the final key and global ones
elsewhere, and the deployed key schemas are the declared ones (`transform_places`).
-/
import TableKeys.Proofs.Footprint
import TableKeys.Proofs.KeyFits
import TableKeys.Table.View

namespace TableKeys

open Session

/-! ## What a table declares of its indexes -/

/-- The items of a list; other data have none. -/
def Data.items : Data → List Data
  | .list ds => ds
  | _ => []

namespace Table

/-- The names and key schemas of the indexes that the declaration of a table has in a list. -/
def declaredIndexes (t : Table) (kind : String) : List (Data × Data) :=
  (t.declaration.follow ["Properties", kind]).items.map fun d =>
    (d.member "IndexName", d.member "KeySchema")

/-- An index with this name and key schema, as it is declared. -/
def indexEntry (name : String) (schema : List KeyElement) : Data × Data :=
  (.text name, .list (schema.map KeyElement.data))

/-- The lists of indexes in the properties of a declaration are found, or are empty. -/
lemma items_properties (schema attributes : Data) (locals globals : List Data) :
    let properties := [("KeySchema", schema), ("AttributeDefinitions", attributes)] ++
      listIfAny "LocalSecondaryIndexes" locals ++ listIfAny "GlobalSecondaryIndexes" globals
    ((Data.object properties).member "LocalSecondaryIndexes").items = locals ∧
      ((Data.object properties).member "GlobalSecondaryIndexes").items = globals := by
  simp only [Data.member_object]
  cases locals <;> cases globals <;> exact ⟨rfl, rfl⟩

/-- A local index is declared with the partition attribute that the table has, a global one with
its own. -/
lemma declaredIndexes_eq (t : Table) :
    t.declaredIndexes "LocalSecondaryIndexes" =
        t.localIndexes.map (fun i => indexEntry i.name (i.keySchema t.partition.name)) ∧
      t.declaredIndexes "GlobalSecondaryIndexes" =
        t.globalIndexes.map fun i => indexEntry i.name i.keySchema := by
  have hitems := items_properties (.list (t.keySchema.map KeyElement.data))
    (.list (t.attributes.map fun a =>
      .object [("AttributeName", .text a.name), ("AttributeType", .text a.type.letter)]))
    (t.localIndexes.map fun i =>
      Data.object (indexDeclaration i.name (i.keySchema t.partition.name) i.projection))
    (t.globalIndexes.map fun i =>
      Data.object (indexDeclaration i.name i.keySchema i.projection ++
        capacityDeclaration t.payPerRequestCondition i))
  obtain ⟨hlocals, hglobals⟩ := hitems
  constructor
  · refine (congrArg (List.map _) hlocals).trans ?_
    rw [List.map_map]
    rfl
  · refine (congrArg (List.map _) hglobals).trans ?_
    rw [List.map_map]
    rfl

end Table

/-! ## The place of an index -/

/-- An index becomes a local one: indexes are not made global throughout, and its partition field
is the partition attribute of the table. -/
def Options.makesLocal (o : Options) (t : Table) (i : IndexDecl) : Bool :=
  (match o.globalOnly with
    | .ok flag => !flag
    | .error _ => false) && t.partition.name == i.partition.name

/-- The indexes of the table are those that are declared, in order, each in its place and with its
key schema. -/
structure Table.Indexed (o : Options) (is : List IndexDecl) (t : Table) : Prop where
  locals : t.localIndexes.map (fun i => (i.name, i.keySchema t.partition.name)) =
    (is.filter (o.makesLocal t)).map fun i => (i.name, i.schema o)
  globals : t.globalIndexes.map (fun i => (i.name, i.keySchema)) =
    (is.filter fun i => !o.makesLocal t i).map fun i => (i.name, i.schema o)

namespace Table.Indexed

variable {o : Options} {is : List IndexDecl} {t t' : Table}

lemma nil (h : t.indexes = []) : t.Indexed o [] := by
  rw [indexes, List.append_eq_nil_iff, List.map_eq_nil_iff, List.map_eq_nil_iff] at h
  constructor
  · rw [h.1]
    rfl
  · rw [h.2]
    rfl

/-- The place of an index depends on the name of the partition attribute. -/
lemma makesLocal_congr (h : t'.partition = t.partition) : o.makesLocal t' = o.makesLocal t := by
  funext i
  rw [Options.makesLocal, Options.makesLocal, h]

/-- A local index is added, with the declared sort attribute. -/
lemma add_local (ht : t.Indexed o is) {i : IndexDecl} {l : LocalIndex}
    (hpartition : t'.partition = t.partition) (hlocals : t'.localIndexes = t.localIndexes ++ [l])
    (hglobals : t'.globalIndexes = t.globalIndexes) (hlocal : o.makesLocal t i = true)
    (hname : l.name = i.name) (hsort : l.sort.map KeyAttribute.name = i.sortName? o) :
    t'.Indexed o (is ++ [i]) := by
  have hshared : t.partition.name = i.partition.name := by
    rw [Options.makesLocal, Bool.and_eq_true, beq_iff_eq] at hlocal
    exact hlocal.2
  have hschema : l.keySchema t.partition.name = i.schema o := by
    rw [LocalIndex.keySchema, hsort, hshared, KeyDecl.schema]
  constructor
  · have hthis : [i].filter (o.makesLocal t) = [i] := by simp [hlocal]
    rw [makesLocal_congr hpartition, hpartition, hlocals, List.map_append, ht.locals,
      List.filter_append, List.map_append, hthis]
    simp only [List.map_cons, List.map_nil, hname, hschema]
  · have hnone : ([i].filter fun i => !o.makesLocal t i) = [] := by simp [hlocal]
    rw [makesLocal_congr hpartition, hglobals, ht.globals, List.filter_append, hnone,
      List.append_nil]

/-- A global index is added, with the declared attributes. -/
lemma add_global (ht : t.Indexed o is) {i : IndexDecl} {g : GlobalIndex}
    (hpartition : t'.partition = t.partition) (hlocals : t'.localIndexes = t.localIndexes)
    (hglobals : t'.globalIndexes = t.globalIndexes ++ [g]) (hglobal : o.makesLocal t i = false)
    (hname : g.name = i.name) (hkey : g.partition.name = i.partition.name)
    (hsort : g.sort.map KeyAttribute.name = i.sortName? o) : t'.Indexed o (is ++ [i]) := by
  have hschema : g.keySchema = i.schema o := by
    rw [GlobalIndex.keySchema, hsort, hkey, KeyDecl.schema]
  constructor
  · have hnone : [i].filter (o.makesLocal t) = [] := by simp [hglobal]
    rw [makesLocal_congr hpartition, hpartition, hlocals, ht.locals, List.filter_append, hnone,
      List.append_nil]
  · have hthis : ([i].filter fun i => !o.makesLocal t i) = [i] := by simp [hglobal]
    rw [makesLocal_congr hpartition, hglobals, List.map_append, ht.globals, List.filter_append,
      List.map_append, hthis]
    simp only [List.map_cons, List.map_nil, hname, hschema]

/-- The sort attribute of a placed index has the name that is declared. -/
lemma map_name_typed (definitions : List KeyAttribute) (sort : Option String) :
    (sort.map (typed definitions)).map KeyAttribute.name = sort := by
  cases sort <;> rfl

/-- **A declared index goes to its place.** -/
lemma add {s : Session} {i : IndexDecl} {e : Event} (ht : t.Indexed s.options is)
    (hflag : ∃ flag, s.options.globalOnly = .ok flag)
    (h : addIndex (s.placed i t) t = .ok e t') :
    t'.Indexed s.options (is ++ [i]) := by
  obtain ⟨flag, hflag⟩ := hflag
  obtain ⟨-, t₁, hextends, rfl⟩ := addIndex_ok h
  have hpartition : t₁.partition = t.partition := by rw [hextends.same]
  have hlocals : t₁.localIndexes = t.localIndexes := by rw [hextends.same]
  have hglobals : t₁.globalIndexes = t.globalIndexes := by rw [hextends.same]
  -- the test of the step is the one that is declared, since the flag can be read
  have hplace : (!s.options.globalOnly.toOption.getD false && t.partition.name ==
      (typed ((i.attributes s.schema s.options).toOption.getD []) i.partition.name).name) =
        s.options.makesLocal t i := by
    rw [Options.makesLocal, hflag]
    rfl
  rw [placed, hplace]
  cases hlocal : s.options.makesLocal t i with
  | true =>
    rw [if_pos rfl]
    exact ht.add_local hpartition (congrArg (· ++ _) hlocals) hglobals hlocal rfl
      (map_name_typed _ _)
  | false =>
    rw [if_neg Bool.false_ne_true]
    exact ht.add_global hpartition hlocals (congrArg (· ++ _) hglobals) hlocal rfl rfl
      (map_name_typed _ _)

end Table.Indexed

namespace Session

open Table

/-! ## Runs -/

variable {s s' : Session} {type : String} {t : Table}

/-- An index that is put into effect is added to the table of its type, in its place. -/
lemma applyIndex_indexed {i : IndexDecl} {is : List IndexDecl}
    (h : applyIndex i s = .ok () s') (ht : s.tables.get? i.object.name = some t)
    (hindexed : t.Indexed s.options is) :
    s'.options = s.options ∧ ∃ t', s'.tables.get? i.object.name = some t' ∧
      t'.Indexed s.options (is ++ [i]) := by
  have hcovers : Footprint.Covers ⟨s.schema, i.object.name, [i.object]⟩ i.toKeyDecl :=
    ⟨rfl, by simp⟩
  have hframe := (confined_applyIndex hcovers s () s' rfl h).1
  obtain ⟨_, s₁, happend, hresolvers⟩ := of_bind_ok h
  obtain ⟨t₀, e, t', ht₀, hadd, htables, hflag⟩ := appendIndex_ok happend
  obtain rfl := Option.some.inj (ht.symm.trans ht₀)
  -- what follows is about resolvers only
  have hsame : s'.tables = s₁.tables := updateResolversForIndex_tables i s₁ s' () hresolvers
  refine ⟨hframe.setting.options.symm, t', ?_, hindexed.add hflag hadd⟩
  rw [hsame, htables, Entries.get?_put_self]

/-- The indexes of a type are added in order. -/
lemma applyIndexes_indexed {is done : List IndexDecl} (his : ∀ i ∈ is, i.object.name = type)
    (h : applyIndexes is s = .ok () s') (ht : s.tables.get? type = some t)
    (hindexed : t.Indexed s.options done) :
    ∃ t', s'.tables.get? type = some t' ∧ t'.Indexed s.options (done ++ is) := by
  induction is generalizing s t done with
  | nil =>
    cases h
    exact ⟨t, ht, by rwa [List.append_nil]⟩
  | cons i is ih =>
    obtain ⟨_, s₁, hfirst, hrest⟩ := of_bind_ok h
    obtain rfl := his i (by simp)
    obtain ⟨hoptions, t₁, ht₁, hindexed₁⟩ := applyIndex_indexed hfirst ht hindexed
    rw [← hoptions] at hindexed₁ ⊢
    obtain ⟨t', ht', hindexed'⟩ := ih (fun j hj => his j (by simp [hj])) hrest ht₁ hindexed₁
    exact ⟨t', ht', by rwa [List.append_assoc] at hindexed'⟩

/-- A new primary key brings no indexes. -/
lemma applyPrimaryKey_bare {k : KeyDecl} (h : applyPrimaryKey k s = .ok () s')
    (ht : s.tables.get? k.object.name = some t) (hbare : t.indexes = []) :
    s'.options = s.options ∧ ∃ t', s'.tables.get? k.object.name = some t' ∧ t'.indexes = [] := by
  have hcovers : Footprint.Covers ⟨s.schema, k.object.name, [k.object]⟩ k := ⟨rfl, by simp⟩
  have hframe := (confined_applyPrimaryKey hcovers s () s' rfl h).1
  obtain ⟨_, s₁, hreplace, hinject⟩ := of_bind_ok h
  obtain ⟨t₀, _, e, t', ht₀, -, hrun, htables⟩ := replacePrimaryKey_ok hreplace
  obtain rfl := Option.some.inj (ht.symm.trans ht₀)
  have hsame : s'.tables = s₁.tables := injectPrimary_tables k _ s₁ s' () hinject
  refine ⟨hframe.setting.options.symm, t', ?_, ?_⟩
  · rw [hsame, htables, Entries.get?_put_self]
  · rw [indexes_replacePrimaryKey hrun, hbare]

/-- **The indexes of a type**: its table gets the primary key first, so all of them are placed with
the final key. -/
lemma transformType_indexed {d : TypeDecls} (hd : d.Proper) (h : transformType d s = .ok () s')
    (ht : s.tables.get? d.type = some t) (hbare : t.indexes = []) :
    ∃ t', s'.tables.get? d.type = some t' ∧ t'.Indexed s.options d.indexes := by
  have htypes : ∀ i ∈ d.indexes, i.object.name = d.type := fun i hi =>
    hd _ (List.mem_append_right _ (List.mem_map_of_mem hi))
  obtain ⟨log, ⟨-, hindexes⟩ | ⟨k, s₁, hk, hkey, hindexes⟩⟩ := transformType_ok h
  · obtain ⟨t', ht', hindexed⟩ := applyIndexes_indexed htypes hindexes ht (.nil hbare)
    exact ⟨t', ht', hindexed⟩
  · -- the key is replaced on a table without indexes, and no index changes it after that
    have htype : k.object.name = d.type := hd k (List.mem_append_left _ (by simp [hk]))
    rw [← htype] at ht
    obtain ⟨hoptions, t₁, ht₁, hbare₁⟩ := applyPrimaryKey_bare hkey ht hbare
    rw [htype] at ht₁
    obtain ⟨t', ht', hindexed⟩ := applyIndexes_indexed htypes hindexes ht₁ (.nil hbare₁)
    exact ⟨t', ht', hoptions ▸ hindexed⟩

/-- Other types leave the table of a type alone. -/
lemma transformTypes_spares {ds : List TypeDecls} (hds : ∀ d ∈ ds, d.Proper)
    (h : transformTypes ds s = .ok () s') (htype : type ∉ ds.map TypeDecls.type) :
    s'.tables.get? type = s.tables.get? type := by
  induction ds generalizing s with
  | nil =>
    cases h
    rfl
  | cons d ds ih =>
    obtain ⟨_, s₁, hfirst, hrest⟩ := of_bind_ok h
    rw [List.map_cons, List.mem_cons, not_or] at htype
    have hframe := (confined_transformType (hds d (by simp)) s.schema s () s₁ rfl hfirst).1
    rw [ih (fun e he => hds e (by simp [he])) hrest htype.2]
    exact hframe.table type htype.1

/-- Each type among others gets its indexes. -/
lemma transformTypes_indexed {ds : List TypeDecls} (hds : ∀ d ∈ ds, d.Proper)
    (hnodup : (ds.map TypeDecls.type).Nodup) (h : transformTypes ds s = .ok () s')
    {d : TypeDecls} (hd : d ∈ ds) (ht : s.tables.get? d.type = some t) (hbare : t.indexes = []) :
    ∃ t', s'.tables.get? d.type = some t' ∧ t'.Indexed s.options d.indexes := by
  induction ds generalizing s with
  | nil => cases hd
  | cons e ds ih =>
    obtain ⟨_, s₁, hfirst, hrest⟩ := of_bind_ok h
    rw [List.map_cons, List.nodup_cons] at hnodup
    have hrestProper : ∀ e' ∈ ds, e'.Proper := fun e' he' => hds e' (by simp [he'])
    have hframe := (confined_transformType (hds e (by simp)) s.schema s () s₁ rfl hfirst).1
    rcases List.mem_cons.mp hd with rfl | hd'
    · -- the types that follow leave the table alone
      obtain ⟨t', ht', hindexed⟩ := transformType_indexed (hds d (by simp)) hfirst ht hbare
      refine ⟨t', ?_, hindexed⟩
      rw [transformTypes_spares hrestProper hrest hnodup.1, ht']
    · -- the first type leaves the table alone, so it still has no indexes
      have hne : d.type ≠ e.type := fun heq =>
        hnodup.1 (heq ▸ List.mem_map_of_mem hd')
      have ht₁ : s₁.tables.get? d.type = some t := (hframe.table _ hne).trans ht
      obtain ⟨t', ht', hindexed⟩ := ih hrestProper hnodup.2 hrest hd' ht₁
      exact ⟨t', ht', hframe.setting.options ▸ hindexed⟩

/-- After all declarations a table has the indexes that are declared for its type. -/
lemma transform_indexed {ks : List KeyDecl} {is : List IndexDecl}
    (h : transform ks is s = .ok () s') (ht : s.tables.get? type = some t)
    (hbare : t.indexes = []) :
    ∃ t', s'.tables.get? type = some t' ∧
      t'.Indexed s.options (is.filter (·.object.name == type)) := by
  have hproper := proper_of_mem_byType ks is
  have hnodup := declaredTypes_nodup (ks ++ is.map IndexDecl.toKeyDecl)
  have htypes : (byType ks is).map TypeDecls.type =
      declaredTypes (ks ++ is.map IndexDecl.toKeyDecl) := by
    rw [byType_eq, List.map_map]
    exact List.map_id _
  rw [← htypes] at hnodup
  by_cases hdeclared : type ∈ declaredTypes (ks ++ is.map IndexDecl.toKeyDecl)
  · exact transformTypes_indexed hproper hnodup h (List.mem_map_of_mem hdeclared) ht hbare
  · have hnone : is.filter (·.object.name == type) = [] := (declaredOf_undeclared hdeclared).2
    rw [← htypes] at hdeclared
    rw [transformTypes_spares hproper h hdeclared, hnone]
    exact ⟨t, ht, .nil hbare⟩

/-- **Every index ends up in its place.** A type whose table has no indexes before all declarations
are put into effect has exactly the declared ones after that, local and global ones in the declared
order each. An index is a local one exactly if local indexes are not switched off and its partition
field has the name of the partition attribute of the final key; either way the deployed key schema
of the index is the declared one. -/
theorem transform_places {ks : List KeyDecl} {is : List IndexDecl}
    (h : transform ks is s = .ok () s') (ht : s.tables.get? type = some t)
    (hbare : t.indexes = []) :
    ∃ t', s'.tables.get? type = some t' ∧
      let declared := is.filter (·.object.name == type)
      let locals := declared.filter (s.options.makesLocal t')
      let globals := declared.filter fun i => !s.options.makesLocal t' i
      t'.localIndexes.map LocalIndex.name = locals.map IndexDecl.name ∧
        t'.globalIndexes.map GlobalIndex.name = globals.map IndexDecl.name ∧
        t'.declaredIndexes "LocalSecondaryIndexes" =
          (locals.map fun i => indexEntry i.name (i.schema s.options)) ∧
        t'.declaredIndexes "GlobalSecondaryIndexes" =
          globals.map fun i => indexEntry i.name (i.schema s.options) := by
  obtain ⟨t', ht', hindexed⟩ := transform_indexed h ht hbare
  refine ⟨t', ht', ?_⟩
  have hlocals := hindexed.locals
  have hglobals := hindexed.globals
  obtain ⟨hlocal, hglobal⟩ := t'.declaredIndexes_eq
  refine ⟨?_, ?_, ?_, ?_⟩
  · simpa [Function.comp_def] using congrArg (List.map Prod.fst) hlocals
  · simpa [Function.comp_def] using congrArg (List.map Prod.fst) hglobals
  · rw [hlocal]
    simpa [Function.comp_def] using
      congrArg (List.map fun e : String × List KeyElement => indexEntry e.1 e.2) hlocals
  · rw [hglobal]
    simpa [Function.comp_def] using
      congrArg (List.map fun e : String × List KeyElement => indexEntry e.1 e.2) hglobals

open Template

def noteType : ObjectType where
  name := "Note"

/-- Notes by title. -/
def titleIndex : IndexDecl where
  object := noteType
  partition := { name := "title", typeName := "String" }
  sort := []
  sort_nodup := List.nodup_nil
  partition_notMem_sort := List.not_mem_nil (a := "title")
  name := "byTitle"
  name_ne := by decide
  queryField := some "notesByTitle"
  primaryPartition := none

/-- A session with new tables for memos and notes. -/
def deskSession : Session :=
  match addModelTable "Note" (memoSession memoType "createMemo") with
  | .ok _ s => s
  | .error _ s => s

/-- The partition attribute of memos after declarations have been put into effect. -/
def memoPartition? (ks : List KeyDecl) (is : List IndexDecl) : Option String :=
  match transform ks is deskSession with
  | .ok _ s' => (s'.tables.get? "Memo").map (·.partition.name)
  | .error _ _ => none

/-- The index of the memos is a local one, since it has the partition field of their new key. -/
theorem transform_places_memo :
    ∃ s' t, transform [filingKey] [titleIndex, memoIndex memoType] deskSession = .ok () s' ∧
      s'.tables.get? "Memo" = some t ∧ t.localIndexes.map LocalIndex.name = ["byStatus"] ∧
      t.globalIndexes.map GlobalIndex.name = [] ∧
      t.declaredIndexes "LocalSecondaryIndexes" =
        [indexEntry "byStatus" [⟨"status", .hash⟩, ⟨"year#month", .range⟩]] := by
  have hok : memoPartition? [filingKey] [titleIndex, memoIndex memoType] = some "status" := by
    decide +kernel
  unfold memoPartition? at hok
  cases hrun : transform [filingKey] [titleIndex, memoIndex memoType] deskSession with
  | error e s' =>
    rw [hrun] at hok
    cases hok
  | ok u s' =>
    have hnew : deskSession.tables.get? "Memo" = some {
        logicalId := "MemoTable"
        partition := defaultPartition
        attributes := [defaultPartition] } := rfl
    obtain ⟨t, ht, hlocals, hglobals, hdeclared, -⟩ := transform_places hrun hnew rfl
    rw [hrun] at hok
    have hpartition : t.partition.name = "status" := by simpa [ht] using hok
    have hlocal : deskSession.options.makesLocal t (memoIndex memoType) = true := by
      rw [Options.makesLocal, hpartition]
      rfl
    have hmemo : [titleIndex, memoIndex memoType].filter (·.object.name == "Memo") =
        [memoIndex memoType] := rfl
    rw [hmemo, List.filter_cons_of_pos hlocal] at hlocals hdeclared
    refine ⟨s', t, rfl, ht, hlocals, ?_, hdeclared⟩
    rw [hglobals, hmemo]
    simp [hlocal]

end Session

end TableKeys
