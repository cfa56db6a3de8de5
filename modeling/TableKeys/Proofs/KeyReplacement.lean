/-
# When a primary key can be replaced

A primary key is replaced by the two lists that are made from its declaration, a key schema and
attribute definitions. These fit each other, and the definitions that only the old key needed
are gone when the new ones are registered. So there is one reason left to fail: an attribute of
the new key is in an index with another type (`replacePrimaryKey_fails_iff`).

* `registerAll_error_iff`: attributes with distinct names are registered unless one of them is in
  conflict with a definition;
* `attributeType?_replaced`: what is defined afterwards.
-/
import TableKeys.Proofs.KeyFits

namespace TableKeys

/-! ## The two lists of a declaration -/

namespace KeyDecl

variable {k : KeyDecl} {schema : Schema} {o : Options} {definitions : List KeyAttribute}

/-- A declaration whose fields have types has definitions. -/
lemma attributes_eq_ok (h : ∀ f ∈ k.fields, ∃ type, schema.attributeType f = .ok type) :
    ∃ definitions, k.attributes schema o = .ok definitions := by
  obtain ⟨object, partition, sort, hnodup, hpartition⟩ := k
  obtain ⟨type, hp⟩ := h partition (by simp [fields])
  have hsort : ∀ f ∈ sort, ∃ type, schema.attributeType f = .ok type :=
    fun f hf => h f (by simp [fields, hf])
  rw [attributes, hp]
  rcases sort with _ | ⟨f, _ | ⟨g, fs⟩⟩
  · exact ⟨_, rfl⟩
  · obtain ⟨sortType, hf⟩ := hsort f (by simp)
    refine ⟨[⟨partition.name, type⟩, ⟨f.name, sortType⟩], ?_⟩
    simp only [hf]
    rfl
  · obtain ⟨types, hfs⟩ := exists_mapM_ok hsort
    rw [← attributeTypes_eq_mapM] at hfs
    refine ⟨[⟨partition.name, type⟩, ⟨compositeName o (FieldDef.names (f :: g :: fs)), .s⟩], ?_⟩
    simp only [hfs]
    rfl

/-- The two attributes of a key have different names. -/
lemma partition_ne_sortName (hfields : ∀ f ∈ k.fields, isSchemaName f.name = true)
    (hsep : ∃ c ∈ o.nameSeparator.toList, isSchemaChar c = false) :
    k.sortName? o ≠ some k.partition.name := by
  intro hname
  rw [sortName?] at hname
  split at hname
  · cases hname
  · rename_i f hsingle
    obtain rfl := Option.some.inj hname
    have hmem : k.partition.name ∈ k.sortFields := by simp [hsingle]
    exact k.partition_notMem_sort hmem
  · rename_i hnil hsingle
    -- a synthetic name has a character of the separator, which names of the schema have not
    have hcomposite : k.isComposite = true := by
      rw [isComposite, decide_eq_true_eq]
      rcases hsort : k.sort with _ | ⟨f, _ | ⟨g, fs⟩⟩
      · exact absurd (by simp [sortFields, hsort]) hnil
      · exact absurd (by simp [sortFields, hsort]) (hsingle f.name)
      · simp
    obtain ⟨c, hc, hschema⟩ := hsep
    have hpartition := hfields k.partition (by simp [fields])
    rw [← Option.some.inj hname, isSchemaName_compositeName hcomposite hc hschema] at hpartition
    cases hpartition

/-- Every attribute of a declared key has one definition. -/
lemma attributes_nodup (hfields : ∀ f ∈ k.fields, isSchemaName f.name = true)
    (hsep : ∃ c ∈ o.nameSeparator.toList, isSchemaChar c = false)
    (h : k.attributes schema o = .ok definitions) :
    (definitions.map KeyAttribute.name).Nodup := by
  rw [attributes_names h, KeyDecl.schema, keySchemaOf]
  have hne := partition_ne_sortName hfields hsep
  cases hname : k.sortName? o with
  | none => simp
  | some name =>
    rw [hname] at hne
    have hdistinct : k.partition.name ≠ name := fun heq => hne (heq ▸ rfl)
    simpa using hdistinct

end KeyDecl

namespace Table

variable {t t' : Table} {as : List KeyAttribute}

/-! ## Registering without conflict -/

/-- Two attributes of one name and of different types. -/
def Conflict (a d : KeyAttribute) : Prop :=
  a.name = d.name ∧ a.type ≠ d.type

/-- Attributes with distinct names are in no conflict with each other, so they are registered
unless one of them is in conflict with what was defined before. -/
lemma registerAll_error_iff (hnew : (as.map KeyAttribute.name).Nodup)
    (honce : (t.attributes.map KeyAttribute.name).Nodup) :
    (∃ e t', registerAll as t = .error e t') ↔
      ∃ d ∈ as, ∃ a ∈ t.attributes, Conflict a d := by
  constructor
  · rintro ⟨e, t', h⟩
    clear honce
    induction as generalizing t with
    | nil => cases h
    | cons b as ih =>
      rcases of_bind_error h with h | ⟨_, t₁, hregister, h⟩
      · obtain ⟨-, a, ha, hname, htype⟩ := register_error h
        exact ⟨b, by simp, a, ha, hname, htype⟩
      · rw [List.map_cons, List.nodup_cons] at hnew
        obtain ⟨d, hd, a, ha, hconflict⟩ := ih hnew.2 h
        -- the attribute that was registered first has another name
        have hold : a ∈ t.attributes := by
          refine (((register_ok hregister).mem a).mp ha).resolve_right fun hb => hnew.1 ?_
          rw [← List.mem_singleton.mp hb, hconflict.1]
          exact List.mem_map_of_mem hd
        exact ⟨d, by simp [hd], a, hold, hconflict⟩
  · rintro ⟨d, hd, a, ha, hname, htype⟩
    cases hrun : registerAll as t with
    | error e t' => exact ⟨e, t', rfl⟩
    | ok u t' =>
      -- both would be defined, although names are defined once
      have hextends := registerAll_ok hrun
      have heq := eq_of_name_eq (hextends.once honce) ((hextends.mem a).mpr (.inl ha))
        ((hextends.mem d).mpr (.inr hd)) hname
      exact absurd (congrArg KeyAttribute.type heq) htype

/-- Where names are defined once, an attribute that is defined gives the type of its name. -/
lemma attributeType?_of_mem (honce : (t.attributes.map KeyAttribute.name).Nodup)
    {a : KeyAttribute} (ha : a ∈ t.attributes) : t.attributeType? a.name = some a.type := by
  have hsome : (t.attributes.find? (·.name == a.name)).isSome := by
    rw [List.find?_isSome]
    exact ⟨a, ha, by simp⟩
  obtain ⟨d, hd⟩ := Option.isSome_iff_exists.mp hsome
  have hname : d.name = a.name := by simpa using List.find?_some hd
  rw [attributeType?, hd, Option.map_some,
    eq_of_name_eq honce (List.mem_of_find?_eq_some hd) ha hname]

/-! ## A new primary key -/

section Replaced

variable {partition : String} {sort : Option String} {definitions : List KeyAttribute}

lemma undefinedNames_eq_nil {schema : List KeyElement}
    (h : definitions.map KeyAttribute.name = schema.map KeyElement.name) :
    undefinedNames schema definitions = [] := by
  rw [undefinedNames, List.filter_eq_nil_iff]
  intro name hname
  rw [← h] at hname
  obtain ⟨d, hd, hdname⟩ := List.mem_map.mp hname
  have hsome : (definitions.reverse.find? (·.name == name)).isSome := by
    rw [List.find?_isSome]
    exact ⟨d, by simpa using hd, by simpa using hdname⟩
  simpa [definedType?] using hsome

/-- With definitions of its attributes, each once, a new primary key is refused exactly if one of
them is in an index with another type. -/
lemma replacePrimaryKey_error_iff (ht : t.Consistent)
    (hnames : definitions.map KeyAttribute.name =
      (keySchemaOf partition sort).map KeyElement.name)
    (hnodup : (definitions.map KeyAttribute.name).Nodup) :
    (∃ e t', replacePrimaryKey (keySchemaOf partition sort) definitions t = .error e t') ↔
      ∃ d ∈ definitions, ∃ a ∈ t.indexAttributes, Conflict a d := by
  have hkept : (t.keptAttributes.map KeyAttribute.name).Nodup :=
    ht.once.sublist (List.filter_sublist.map _)
  have hregister := fun partition sort =>
    registerAll_error_iff (t := t.rekeyed partition sort) hnodup hkept
  simp only [rekeyed, ht.mem_keptAttributes] at hregister
  constructor
  · rintro ⟨e, t', h⟩
    rcases replacePrimaryKey_error h with ⟨hrefused, -⟩ | ⟨_, _, -, -, hfails⟩
    · rcases hrefused with ⟨hmalformed, -⟩ | ⟨hundefined, -⟩
      · rw [keyElements?_keySchemaOf] at hmalformed
        cases hmalformed
      · exact absurd (undefinedNames_eq_nil hnames) hundefined
    · exact (hregister _ _).mp ⟨e, t', hfails⟩
  · intro hconflict
    cases hrun : replacePrimaryKey (keySchemaOf partition sort) definitions t with
    | error e t' => exact ⟨e, t', rfl⟩
    | ok e t' =>
      obtain ⟨_, _, -, hregistered⟩ := replacePrimaryKey_ok hrun
      obtain ⟨_, _, hfails⟩ := (hregister _ _).mpr hconflict
      have hcontra := hregistered.symm.trans hfails
      cases hcontra

/-- What is defined with the new primary key: what indexes use is as before, and what only the
old key used is gone. -/
lemma attributeType?_replaced {e : Event} (ht : t.Consistent)
    (h : replacePrimaryKey (keySchemaOf partition sort) definitions t = .ok e t') :
    (∀ a ∈ t.indexAttributes, t'.attributeType? a.name = t.attributeType? a.name) ∧
      ∀ a ∈ t.primaryAttributes, a.name ∉ definitions.map KeyAttribute.name →
        a.name ∉ t.indexAttributes.map KeyAttribute.name → t'.attributeType? a.name = none := by
  obtain ⟨_, _, -, hregister⟩ := replacePrimaryKey_ok h
  have hextends := registerAll_ok hregister
  have honce := hextends.once (ht.once.sublist (List.filter_sublist.map _))
  have hmem : ∀ d, d ∈ t'.attributes ↔ d ∈ t.indexAttributes ∨ d ∈ definitions := fun d =>
    (hextends.mem d).trans (or_congr_left (ht.mem_keptAttributes d))
  constructor
  · intro a ha
    have hbefore : a ∈ t.attributes := (ht.mem_iff a).mpr (List.mem_append_right _ ha)
    rw [attributeType?_of_mem honce ((hmem a).mpr (.inl ha)),
      attributeType?_of_mem ht.once hbefore]
  · intro a _ hnew hindex
    rw [attributeType?, Option.map_eq_none_iff, List.find?_eq_none]
    intro d hd hname
    have heq : d.name = a.name := by simpa using hname
    rcases (hmem d).mp hd with hd | hd
    · exact hindex (heq ▸ List.mem_map_of_mem hd)
    · exact hnew (heq ▸ List.mem_map_of_mem hd)

end Replaced

end Table

namespace Session

open Table

variable {s : Session} {t : Table} {k : KeyDecl}

/-- A change of a table that is there fails exactly if the table refuses it. -/
lemma changeTable_error_iff {type : String} {change : TableChange Event}
    (ht : s.tables.get? type = some t) :
    (∃ e s', changeTable type change s = .error e s') ↔ ∃ e t', change t = .error e t' := by
  have htable : tableOf type s = .ok t s := by rw [tableOf_apply, ht]
  constructor
  · rintro ⟨e, s', h⟩
    rcases of_bind_error h with hmissing | ⟨t₁, s₁, hfound, hrest⟩
    · rw [htable] at hmissing
      cases hmissing
    · obtain ⟨rfl, rfl⟩ := EStateM.Result.ok.inj (htable.symm.trans hfound)
      cases hrun : change.run t with
      | ok event t' =>
        simp only [hrun] at hrest
        cases hrest
      | error e t' => exact ⟨e, t', hrun⟩
  · rintro ⟨e, t', h⟩
    cases hrun : changeTable type change s with
    | error e s' => exact ⟨e, s', rfl⟩
    | ok u s' =>
      obtain ⟨t₁, _, _, ht₁, hok, -⟩ := changeTable_ok hrun
      obtain rfl := Option.some.inj (ht.symm.trans ht₁)
      have hcontra := h.symm.trans hok
      cases hcontra

/-- Where the table and the definitions are there, replacing the key is changing the table. -/
lemma replacePrimaryKey_eq_changeTable {definitions : List KeyAttribute}
    (ht : s.tables.get? k.object.name = some t)
    (h : k.attributes s.schema s.options = .ok definitions) :
    replacePrimaryKey k s =
      changeTable k.object.name (Table.replacePrimaryKey (k.schema s.options) definitions) s := by
  rw [replacePrimaryKey, get_bind]
  show EStateM.bind (tableOf k.object.name) _ s = _
  rw [EStateM.bind, tableOf_apply, ht, h]
  rfl

/-- **A primary key is replaced unless it is in conflict with an index.** If the fields of a
declared key have types, the replacement fails exactly if an attribute of the new key is in an
index with another type. If it does not fail, the table has the declared key; what the indexes
use is defined as before; and what only the old key used is not defined any more. -/
theorem replacePrimaryKey_fails_iff (ht : s.tables.get? k.object.name = some t)
    (hconsistent : t.Consistent)
    (htypes : ∀ f ∈ k.fields, ∃ type, s.schema.attributeType f = .ok type)
    (hfields : ∀ f ∈ k.fields, isSchemaName f.name = true)
    (hsep : ∃ c ∈ s.options.nameSeparator.toList, isSchemaChar c = false) :
    ∃ definitions, k.attributes s.schema s.options = .ok definitions ∧
      definitions.map KeyAttribute.name = (k.schema s.options).map KeyElement.name ∧
      ((∃ e s', replacePrimaryKey k s = .error e s') ↔
        ∃ d ∈ definitions, ∃ a ∈ t.indexAttributes, a.name = d.name ∧ a.type ≠ d.type) ∧
      ∀ s', replacePrimaryKey k s = .ok () s' → ∃ t', s'.tables.get? k.object.name = some t' ∧
        t'.keySchema = k.schema s.options ∧
        (∀ a ∈ t.indexAttributes, t'.attributeType? a.name = t.attributeType? a.name) ∧
        ∀ a ∈ t.primaryAttributes, a.name ∉ (k.schema s.options).map KeyElement.name →
          a.name ∉ t.indexAttributes.map KeyAttribute.name → t'.attributeType? a.name = none := by
  obtain ⟨definitions, hdefinitions⟩ := KeyDecl.attributes_eq_ok (o := s.options) htypes
  have hnames := KeyDecl.attributes_names hdefinitions
  refine ⟨definitions, hdefinitions, hnames, ?_, fun s' h => ?_⟩
  · rw [replacePrimaryKey_eq_changeTable ht hdefinitions, changeTable_error_iff ht]
    exact replacePrimaryKey_error_iff hconsistent hnames
      (KeyDecl.attributes_nodup hfields hsep hdefinitions)
  · obtain ⟨t₁, definitions₁, e, t', ht₁, hdefinitions₁, hrun, htables⟩ := replacePrimaryKey_ok h
    obtain rfl := Option.some.inj (ht.symm.trans ht₁)
    obtain rfl := Except.ok.inj (hdefinitions.symm.trans hdefinitions₁)
    obtain ⟨hindex, hgone⟩ := attributeType?_replaced hconsistent hrun
    exact ⟨t', by rw [htables, Entries.get?_put_self], keySchema_replacePrimaryKey hrun, hindex,
      fun a ha hnew => hgone a ha (by rwa [hnames])⟩

/-- A session with a table that has an index on email addresses. -/
def contactSession : Session :=
  { Template.memoSession { name := "Contact" } "createContact" with
    schema := {}
    tables := [("Contact", contactTable)] }

/-- A key with the email address, here a number, as sort attribute. -/
def contactKey : KeyDecl where
  object := { name := "Contact" }
  partition := { name := "id", typeName := "ID" }
  sort := [{ name := "email", typeName := "Int" }]
  sort_nodup := by decide
  partition_notMem_sort := by decide

/-- The index needs the email address as a text. -/
theorem replacePrimaryKey_fails_iff_contacts :
    (∃ e s', replacePrimaryKey contactKey contactSession = .error e s') ∧
      contactKey.attributes {} {} = .ok [⟨"id", .s⟩, ⟨"email", .n⟩] := by
  have hconsistent : contactTable.Consistent :=
    .of_mem (fun d => by simp [contactTable, byEmail, keyAttributes, primaryAttributes,
      indexAttributes]) (by decide) (by decide)
  have htypes : ∀ f ∈ contactKey.fields, ∃ type, contactSession.schema.attributeType f = .ok type :=
    List.forall_mem_cons.mpr ⟨⟨.s, rfl⟩, List.forall_mem_cons.mpr ⟨⟨.n, rfl⟩, by simp⟩⟩
  obtain ⟨definitions, hdefinitions, -, hfails, -⟩ := replacePrimaryKey_fails_iff
    (s := contactSession) (k := contactKey) (t := contactTable) rfl hconsistent htypes
    (by decide) ⟨'#', by decide, by decide⟩
  obtain rfl := Except.ok.inj ((show contactKey.attributes {} {} =
    .ok [⟨"id", .s⟩, ⟨"email", .n⟩] from rfl).symm.trans hdefinitions)
  refine ⟨hfails.mpr ⟨⟨"email", .n⟩, by decide, ⟨"email", .s⟩, by decide, by decide⟩, rfl⟩

end Session

end TableKeys
