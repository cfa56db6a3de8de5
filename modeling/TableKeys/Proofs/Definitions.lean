/-
# The attribute definitions of a table

In a consistent table (`Table.Consistent`) exactly the attributes of its keys are defined, each
once and with the type that the keys say, and no two indexes have the same name. The changes of
a table keep it consistent, although one of them takes definitions away that another may need:

* `Consistent.replacePrimaryKey`: an attribute may be in the old key, in the new key and in
  indexes, in any combination;
* `Consistent.addIndex`: local and global indexes;
* `Fits.create`: new tables.
-/
import TableKeys.Proofs.Results
import TableKeys.Table.Shape
import Mathlib.Data.List.Nodup

namespace TableKeys

namespace Table

namespace AnyIndex

/-- The name of the index. -/
def name : AnyIndex → String
  | isLocal i => i.name
  | isGlobal i => i.name

/-- The key attributes of the index; a local index shares its partition attribute with the
table. -/
def attributes : AnyIndex → List KeyAttribute
  | isLocal i => i.sort.toList
  | isGlobal i => i.partition :: i.sort.toList

end AnyIndex

/-- The indexes of a table, local ones first. -/
def indexes (t : Table) : List AnyIndex :=
  t.localIndexes.map .isLocal ++ t.globalIndexes.map .isGlobal

/-- The attributes of all keys of a table. -/
def keyAttributes (t : Table) : List KeyAttribute :=
  t.primaryAttributes ++ t.indexAttributes

/-- **What holds of every table**: the names that are defined are the names of key attributes,
each is defined once, the definition has the type that every key with this attribute says, and
the names of the indexes are distinct. -/
structure Consistent (t : Table) : Prop where
  names : ∀ name, name ∈ t.attributes.map KeyAttribute.name ↔
    name ∈ t.keyAttributes.map KeyAttribute.name
  once : (t.attributes.map KeyAttribute.name).Nodup
  types : ∀ d ∈ t.attributes, ∀ a ∈ t.keyAttributes, a.name = d.name → a.type = d.type
  indexNames : t.indexNames.Nodup

variable {t t' : Table} {a d : KeyAttribute} {as : List KeyAttribute}

lemma indexNames_eq (t : Table) : t.indexNames = t.indexes.map AnyIndex.name := by
  rw [indexNames, indexes, List.map_append, List.map_map, List.map_map]
  rfl

lemma indexAttributes_eq (t : Table) :
    t.indexAttributes = t.indexes.flatMap AnyIndex.attributes := by
  rw [indexAttributes, indexes, List.flatMap_append, List.flatMap_map, List.flatMap_map]
  rfl

/-! ## One definition for a name -/

lemma eq_of_parts (hname : a.name = d.name) (htype : a.type = d.type) : a = d :=
  congrArg₂ KeyAttribute.mk hname htype

lemma eq_of_name_eq (honce : (as.map KeyAttribute.name).Nodup) (ha : a ∈ as) (hd : d ∈ as)
    (hname : a.name = d.name) : a = d :=
  List.inj_on_of_nodup_map honce ha hd hname

/-- Where every name is defined once, the definitions are the key attributes. -/
lemma Consistent.of_mem (hmem : ∀ d, d ∈ t.attributes ↔ d ∈ t.keyAttributes)
    (honce : (t.attributes.map KeyAttribute.name).Nodup) (hnames : t.indexNames.Nodup) :
    t.Consistent where
  names name := by simp only [List.mem_map, hmem]
  once := honce
  types d hd a ha hname := by rw [eq_of_name_eq honce ((hmem a).mpr ha) hd hname]
  indexNames := hnames

lemma Consistent.mem_iff (h : t.Consistent) (d : KeyAttribute) :
    d ∈ t.attributes ↔ d ∈ t.keyAttributes := by
  constructor
  · intro hd
    obtain ⟨a, ha, hname⟩ := List.mem_map.mp ((h.names d.name).mp (List.mem_map_of_mem hd))
    rwa [← eq_of_parts hname (h.types d hd a ha hname)]
  · intro hd
    obtain ⟨a, ha, hname⟩ := List.mem_map.mp ((h.names d.name).mpr (List.mem_map_of_mem hd))
    rwa [eq_of_parts hname.symm (h.types a ha d hd hname.symm)]

/-! ## Registering -/

/-- The table is the same but for these attributes, which are now defined. -/
structure Extends (t t' : Table) (as : List KeyAttribute) : Prop where
  same : t' = { t with attributes := t'.attributes }
  mem : ∀ d, d ∈ t'.attributes ↔ d ∈ t.attributes ∨ d ∈ as
  once : (t.attributes.map KeyAttribute.name).Nodup →
    (t'.attributes.map KeyAttribute.name).Nodup

lemma Extends.refl (t : Table) : Extends t t [] :=
  ⟨rfl, fun d => by simp, id⟩

lemma Extends.trans {t₁ t₂ t₃ : Table} {bs : List KeyAttribute} (h : Extends t₁ t₂ as)
    (h' : Extends t₂ t₃ bs) : Extends t₁ t₃ (as ++ bs) where
  same := by rw [h'.same, h.same]
  mem d := by rw [h'.mem, h.mem, List.mem_append, or_assoc]
  once honce := h'.once (h.once honce)

lemma get_bind {β : Type} (f : Table → TableChange β) (t : Table) :
    (get >>= f : TableChange β) t = f t t := rfl

lemma register_apply (a : KeyAttribute) (t : Table) :
    register a t = match t.attributes.find? (·.name == a.name) with
      | none => .ok () { t with attributes := t.attributes ++ [a] }
      | some d => if d.type = a.type then .ok () t else
          .error (.conflictingType t.logicalId a.name d.type a.type) t := by
  rw [register, get_bind, attributeType?]
  cases t.attributes.find? (·.name == a.name) with
  | none => rfl
  | some d =>
    simp only [Option.map_some]
    split <;> rfl

lemma register_ok {u : Unit} (h : register a t = .ok u t') : Extends t t' [a] := by
  rw [register_apply] at h
  cases hfind : t.attributes.find? (·.name == a.name) with
  | none =>
    have hnew : a.name ∉ t.attributes.map KeyAttribute.name := by
      intro hmem
      obtain ⟨d, hd, hname⟩ := List.mem_map.mp hmem
      exact List.find?_eq_none.mp hfind d hd (by simp [hname])
    simp only [hfind] at h
    cases h
    refine ⟨rfl, fun d => by simp, fun honce => ?_⟩
    rw [List.map_append, List.map_singleton]
    exact honce.append (List.nodup_singleton _) (by simpa using hnew)
  | some d =>
    simp only [hfind] at h
    split at h
    · rename_i htype
      cases h
      have hname : d.name = a.name := by simpa using List.find?_some hfind
      obtain rfl : d = a := eq_of_parts hname htype
      have hmem : d ∈ t.attributes := List.mem_of_find?_eq_some hfind
      refine ⟨rfl, fun d => ?_, id⟩
      rw [List.mem_singleton]
      exact ⟨Or.inl, fun h => h.elim id fun h => h ▸ hmem⟩
    · cases h

/-- Registering several attributes defines them, and nothing else. -/
lemma registerAll_ok {u : Unit} (h : registerAll as t = .ok u t') : Extends t t' as := by
  induction as generalizing t with
  | nil =>
    cases h
    exact .refl _
  | cons a as ih =>
    obtain ⟨_, t₁, hregister, hrest⟩ := of_bind_ok h
    exact (register_ok hregister).trans (ih hrest)

/-! ## New tables -/

/-- What a planned table must fit: the definitions that come with it are of key attributes, each
name is defined once, and the indexes that come with it have their attributes defined and
distinct names. -/
structure Fits (plan : Table) : Prop where
  used : ∀ d ∈ plan.attributes, d.name ∈ plan.keyAttributes.map KeyAttribute.name
  once : (plan.attributes.map KeyAttribute.name).Nodup
  defined : ∀ a ∈ plan.indexAttributes, a ∈ plan.attributes
  indexNames : plan.indexNames.Nodup

/-- A plan without definitions and indexes fits. -/
lemma Fits.of_nil (hattributes : t.attributes = []) (hlocals : t.localIndexes = [])
    (hglobals : t.globalIndexes = []) : t.Fits where
  used := by simp [hattributes]
  once := by simp [hattributes]
  defined := by simp [indexAttributes, hlocals, hglobals]
  indexNames := by simp [Table.indexNames, hlocals, hglobals]

lemma create_ok {plan : Table} (h : create plan = .ok t) :
    Extends plan t plan.primaryAttributes := by
  rw [create] at h
  cases hrun : (registerAll plan.primaryAttributes).run plan with
  | ok u t₁ =>
    rw [hrun] at h
    cases h
    exact registerAll_ok hrun
  | error e t₁ =>
    rw [hrun] at h
    cases h

/-- **A new table is consistent.** -/
theorem Fits.create {plan : Table} (hplan : plan.Fits) (h : create plan = .ok t) :
    t.Consistent := by
  have hextends := create_ok h
  have honce := hextends.once hplan.once
  have hkeys : t.keyAttributes = plan.keyAttributes := by rw [hextends.same]; rfl
  have hdefined : ∀ a ∈ plan.keyAttributes, a ∈ t.attributes := by
    intro a ha
    rw [hextends.mem]
    rcases List.mem_append.mp ha with ha | ha
    · exact .inr ha
    · exact .inl (hplan.defined a ha)
  refine .of_mem (fun d => ⟨fun hd => ?_, fun hd => hdefined d (hkeys ▸ hd)⟩) honce ?_
  · rw [hkeys]
    rcases (hextends.mem d).mp hd with hplanned | hprimary
    · obtain ⟨a, ha, hname⟩ := List.mem_map.mp (hplan.used d hplanned)
      rwa [← eq_of_name_eq honce (hdefined a ha) hd hname]
    · exact List.mem_append_left _ hprimary
  · rw [hextends.same]
    exact hplan.indexNames

/-! ## Replacing the primary key -/

section PrimaryKey

variable {schema : List KeyElement} {definitions : List KeyAttribute} {partition : KeyElement}
  {sort : Option KeyElement}

/-- A key schema with one partition element and at most one sort element has no others. -/
lemma mem_of_keyElements? (h : keyElements? schema = some (partition, sort)) (e : KeyElement) :
    e ∈ schema ↔ e ∈ partition :: sort.toList := by
  have hroles : e ∈ schema ↔ e ∈ elements schema .hash ++ elements schema .range := by
    simp only [elements, List.mem_append, List.mem_filter, beq_iff_eq]
    cases e.role <;> simp
  rw [hroles]
  rw [keyElements?] at h
  split at h
  · rename_i hhash hrange
    cases h
    rw [hhash, hrange]
    rfl
  · rename_i hhash hrange
    cases h
    rw [hhash, hrange]
    rfl
  · cases h

/-- The type that definitions give to a name that they have. -/
lemma typed_mem {name : String} (h : name ∈ definitions.map KeyAttribute.name) :
    typed definitions name ∈ definitions := by
  obtain ⟨d, hd, hname⟩ := List.mem_map.mp h
  obtain ⟨a, ha⟩ : ∃ a, definitions.reverse.find? (·.name == name) = some a := by
    refine Option.isSome_iff_exists.mp (List.find?_isSome.mpr ⟨d, by simpa using hd, ?_⟩)
    simpa using hname
  have hfound : a.name = name := by simpa using List.find?_some ha
  have hmem : a ∈ definitions := by simpa using List.mem_of_find?_eq_some ha
  rwa [typed, definedType?, ha, Option.map_some, Option.getD_some, ← hfound]

lemma primaryAttributes_rekeyed (t : Table) (definitions : List KeyAttribute)
    (partition : KeyElement) (sort : Option KeyElement) :
    (t.rekeyed (typed definitions partition.name)
      (sort.map fun e => typed definitions e.name)).primaryAttributes =
        (partition :: sort.toList).map fun e => typed definitions e.name := by
  cases sort <;> rfl

/-- Whether the key is replaced depends on its elements and on what is defined. -/
lemma replacePrimaryKey_apply (schema : List KeyElement) (definitions : List KeyAttribute)
    (t : Table) : replacePrimaryKey schema definitions t =
      match keyElements? schema with
      | none => .error (.malformedSchema t.logicalId schema) t
      | some (partition, sort) =>
        if (undefinedNames schema definitions).isEmpty then
          (do
            registerAll definitions
            return .primaryKeyReplaced t.logicalId (← get).keySchema : TableChange Event)
            (t.rekeyed (typed definitions partition.name)
              (sort.map fun e => typed definitions e.name))
        else .error (.undefinedAttributes t.logicalId (undefinedNames schema definitions)) t := by
  rw [replacePrimaryKey, get_bind]
  cases keyElements? schema with
  | none => rfl
  | some elements =>
    dsimp only
    split <;> rfl

/-- Replacing the primary key registers the definitions in the table with the new key. -/
lemma replacePrimaryKey_ok {e : Event} (h : replacePrimaryKey schema definitions t = .ok e t') :
    ∃ partition sort, keyElements? schema = some (partition, sort) ∧
      registerAll definitions (t.rekeyed (typed definitions partition.name)
        (sort.map fun e => typed definitions e.name)) = .ok () t' := by
  rw [replacePrimaryKey_apply] at h
  cases helements : keyElements? schema with
  | none =>
    rw [helements] at h
    cases h
  | some elements =>
    obtain ⟨partition, sort⟩ := elements
    simp only [helements] at h
    split at h
    · obtain ⟨_, t₁, hregister, hreturn⟩ := of_bind_ok h
      cases hreturn
      exact ⟨partition, sort, rfl, hregister⟩
    · cases h

/-- The definitions that stay are those that indexes use. -/
lemma Consistent.mem_keptAttributes (h : t.Consistent) (d : KeyAttribute) :
    d ∈ t.keptAttributes ↔ d ∈ t.indexAttributes := by
  have hold : t.keySchema.map KeyElement.name = t.primaryAttributes.map KeyAttribute.name := by
    rw [keySchema, keySchemaOf, primaryAttributes]
    cases t.sort <;> rfl
  rw [keptAttributes, List.mem_filter, hold]
  simp only [Bool.or_eq_true, Bool.not_eq_true', List.contains_eq_mem, decide_eq_true_eq,
    decide_eq_false_iff_not]
  constructor
  · rintro ⟨hd, hkept⟩
    -- what stays of the old key has a name that an index uses, so it is the index's own definition
    rcases List.mem_append.mp ((h.mem_iff d).mp hd) with hprimary | hindex
    · obtain ⟨a, ha, hname⟩ := List.mem_map.mp
        (hkept.resolve_left (not_not_intro (List.mem_map_of_mem hprimary)))
      have ha' : a ∈ t.attributes := (h.mem_iff a).mpr (List.mem_append_right _ ha)
      rwa [← eq_of_name_eq h.once ha' hd hname]
    · exact hindex
  · intro hd
    exact ⟨(h.mem_iff d).mpr (List.mem_append_right _ hd), .inr (List.mem_map_of_mem hd)⟩

/-- **Replacing the primary key keeps a table consistent**, if the definitions are of the
attributes of the new key and of no others. -/
theorem Consistent.replacePrimaryKey {e : Event} (ht : t.Consistent)
    (hnames : ∀ name, name ∈ definitions.map KeyAttribute.name ↔
      name ∈ schema.map KeyElement.name)
    (h : replacePrimaryKey schema definitions t = .ok e t') : t'.Consistent := by
  obtain ⟨partition, sort, helements, hregister⟩ := replacePrimaryKey_ok h
  have hextends := registerAll_ok hregister
  have honce := hextends.once (ht.once.sublist (List.filter_sublist.map _))
  have hprimary : t'.primaryAttributes =
      (partition :: sort.toList).map fun e => typed definitions e.name := by
    rw [hextends.same, ← primaryAttributes_rekeyed t]
    rfl
  have hindex : t'.indexAttributes = t.indexAttributes := by rw [hextends.same]; rfl
  have hdefined : ∀ name, name ∈ (partition :: sort.toList).map KeyElement.name ↔
      name ∈ definitions.map KeyAttribute.name := by
    intro name
    rw [hnames]
    simp only [List.mem_map, mem_of_keyElements? helements]
  -- each definition belongs to the new key, since a name is defined once
  have hnew : ∀ d, d ∈ definitions ↔ d ∈ t'.primaryAttributes := by
    intro d
    rw [hprimary, List.mem_map]
    constructor
    · intro hd
      obtain ⟨e, he, hname⟩ := List.mem_map.mp ((hdefined d.name).mpr (List.mem_map_of_mem hd))
      have htyped := typed_mem ((hdefined e.name).mp (List.mem_map_of_mem he))
      exact ⟨e, he, eq_of_name_eq honce ((hextends.mem _).mpr (.inr htyped))
        ((hextends.mem d).mpr (.inr hd)) hname⟩
    · rintro ⟨e, he, rfl⟩
      exact typed_mem ((hdefined e.name).mp (List.mem_map_of_mem he))
  refine .of_mem (fun d => ?_) honce ?_
  · rw [hextends.mem, keyAttributes, List.mem_append, ← hnew, hindex, or_comm]
    exact or_congr_right (ht.mem_keptAttributes d)
  · rw [hextends.same]
    exact ht.indexNames

end PrimaryKey

/-! ## Adding an index -/

section Index

variable {i : AnyIndex}

/-- Adds an index of either kind. -/
def addIndex : AnyIndex → TableChange Event
  | .isLocal i => addLocalIndex i
  | .isGlobal i => addGlobalIndex i

/-- The table with one more index. -/
def withIndex (t : Table) : AnyIndex → Table
  | .isLocal i => { t with localIndexes := t.localIndexes ++ [i] }
  | .isGlobal i => { t with globalIndexes := t.globalIndexes ++ [i] }

lemma withIndex_attributes (t : Table) (i : AnyIndex) :
    (t.withIndex i).attributes = t.attributes := by
  cases i <;> rfl

lemma indexes_withIndex (t : Table) (i : AnyIndex) :
    (t.withIndex i).indexes.Perm (i :: t.indexes) := by
  cases i with
  | isLocal i =>
    rw [withIndex, indexes, List.map_append, List.append_assoc]
    exact List.perm_middle
  | isGlobal i =>
    rw [withIndex, indexes, List.map_append, ← List.append_assoc]
    exact List.perm_append_singleton _ _

lemma mem_keyAttributes_withIndex (t : Table) (i : AnyIndex) (d : KeyAttribute) :
    d ∈ (t.withIndex i).keyAttributes ↔ d ∈ t.keyAttributes ∨ d ∈ i.attributes := by
  have hprimary : (t.withIndex i).primaryAttributes = t.primaryAttributes := by cases i <;> rfl
  rw [keyAttributes, keyAttributes, List.mem_append, List.mem_append, hprimary,
    indexAttributes_eq, indexAttributes_eq,
    ((indexes_withIndex t i).flatMap_right AnyIndex.attributes).mem_iff, List.flatMap_cons,
    List.mem_append, or_assoc, or_comm (a := d ∈ i.attributes)]

lemma ensureUnusedName_ok {name : String} {u : Unit} (h : ensureUnusedName name t = .ok u t') :
    name ∉ t.indexNames ∧ t = t' := by
  have hrun : (if t.indexNames.contains name then
      throw (TableError.indexExists t.logicalId name) else return () : TableChange Unit) t =
        .ok u t' := h
  split at hrun
  · cases hrun
  · rename_i hunused
    cases hrun
    exact ⟨by simpa using hunused, rfl⟩

/-- Adding an index registers its attributes, if its name is not in use. -/
lemma addIndex_ok {e : Event} (h : addIndex i t = .ok e t') :
    i.name ∉ t.indexNames ∧ ∃ t₁, Extends t t₁ i.attributes ∧ t' = t₁.withIndex i := by
  cases i with
  | isLocal i | isGlobal i =>
    obtain ⟨_, t₀, hensure, hrest⟩ := of_bind_ok h
    obtain ⟨hunused, rfl⟩ := ensureUnusedName_ok hensure
    obtain ⟨_, t₁, hregister, hadd⟩ := of_bind_ok hrest
    cases hadd
    exact ⟨hunused, t₁, registerAll_ok hregister, rfl⟩

/-- **Adding an index keeps a table consistent.** -/
theorem Consistent.addIndex {e : Event} (ht : t.Consistent) (h : addIndex i t = .ok e t') :
    t'.Consistent := by
  obtain ⟨hunused, t₁, hextends, rfl⟩ := addIndex_ok h
  have hkeys : t₁.keyAttributes = t.keyAttributes := by rw [hextends.same]; rfl
  have hnames : t₁.indexNames = t.indexNames := by rw [hextends.same]; rfl
  refine .of_mem (fun d => ?_) ?_ ?_
  · rw [withIndex_attributes, hextends.mem, mem_keyAttributes_withIndex, hkeys, ht.mem_iff]
  · rw [withIndex_attributes]
    exact hextends.once ht.once
  · rw [indexNames_eq, ((indexes_withIndex t₁ i).map AnyIndex.name).nodup_iff, List.map_cons,
      ← indexNames_eq, hnames]
    exact List.nodup_cons.mpr ⟨hunused, ht.indexNames⟩

/-! ## Finding indexes -/

lemma indexes_replacePrimaryKey {schema : List KeyElement} {definitions : List KeyAttribute}
    {e : Event} (h : replacePrimaryKey schema definitions t = .ok e t') :
    t'.indexes = t.indexes := by
  obtain ⟨_, _, -, hregister⟩ := replacePrimaryKey_ok h
  rw [(registerAll_ok hregister).same]
  rfl

lemma indexes_create {plan : Table} (h : create plan = .ok t) : t.indexes = plan.indexes := by
  rw [(create_ok h).same]
  rfl

end Index

end Table

end TableKeys
