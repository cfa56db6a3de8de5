/-
# The key of an item fits its table

The primary key of a table is made from a declaration, and so is the template that makes the key
of an item; the values come from requests. All three name and type the same attributes: if the
values are of the types that the schema gives to their fields, the key of the item has exactly
the key attributes of the table, in order, each wrapped under its defined type
(`modelObjectKey_fits`).
-/
import TableKeys.Proofs.FailedChange
import TableKeys.Proofs.Maintenance

namespace TableKeys

/-! ## Values of attribute types -/

/-- The attribute type of a stored value, if key attributes can have it. -/
def AttributeValue.type? : AttributeValue → Option AttributeType
  | text _ => some .s
  | number _ => some .n
  | binary _ => some .b
  | _ => none

/-- The scalars for fields of an attribute type: texts, and numbers that can be stored. -/
inductive Scalar.OfType : AttributeType → Scalar → Prop
  | text (s : String) : OfType .s (.text s)
  | int (n : Int) (h : ∃ a, (Data.scalar (.int n)).stored = .ok a) : OfType .n (.int n)
  | float (x : Number.Binary64) (h : ∃ a, (Data.scalar (.float x)).stored = .ok a) :
      OfType .n (.float x)

/-- The values of the fields of a key are of the types that the schema gives to the fields. -/
def OfFieldTypes (schema : Schema) (k : KeyDecl) (value : String → Scalar) : Prop :=
  ∀ f ∈ k.fields, ∀ type, schema.attributeType f = .ok type → (value f.name).OfType type

lemma AttributeValue.type?_ofDecimal {d : Number.Decimal} {a : AttributeValue}
    (h : ofDecimal d = .ok a) : a.type? = some .n := by
  unfold ofDecimal at h
  split at h
  · cases h
  · cases h
  · cases h
  · cases h
    rfl

/-- A value of a type is stored under that type. -/
lemma Scalar.OfType.stored {type : AttributeType} {v : Scalar} (h : v.OfType type) :
    v ≠ .null ∧ ∃ a, (Data.scalar v).stored = .ok a ∧ a.type? = some type := by
  cases h with
  | text s => exact ⟨by simp, .text s, rfl, rfl⟩
  | int n h =>
    obtain ⟨a, ha⟩ := h
    have hdecimal : AttributeValue.ofDecimal (.ofInt n) = .ok a := ha
    exact ⟨by simp, a, ha, AttributeValue.type?_ofDecimal hdecimal⟩
  | float x h =>
    obtain ⟨a, ha⟩ := h
    have hdecimal : AttributeValue.ofDecimal x.written = .ok a := ha
    exact ⟨by simp, a, ha, AttributeValue.type?_ofDecimal hdecimal⟩

/-- A stored value stands under the letter of its type. -/
lemma AttributeValue.data_of_type? {a : AttributeValue} {type : AttributeType}
    (h : a.type? = some type) : ∃ payload, a.data = .object [(type.letter, payload)] := by
  cases a <;> cases h <;> exact ⟨_, rfl⟩

/-! ## The definitions of a declared key -/

section Declared

variable {k : KeyDecl} {schema : Schema} {o : Options} {definitions : List KeyAttribute}

/-- Every field of a declared key has a type. -/
lemma KeyDecl.fieldTypes_ok (h : k.attributes schema o = .ok definitions) :
    ∀ f ∈ k.fields, ∃ type, schema.attributeType f = .ok type := by
  obtain ⟨type, hpartition, hsort⟩ := KeyDecl.attributes_cases h
  intro f hf
  rcases List.mem_cons.mp hf with rfl | hf
  · exact ⟨type, hpartition⟩
  · rcases hsort with ⟨hnil, -⟩ | ⟨g, sortType, hsingle, hg, -⟩ | ⟨-, htypes, -⟩
    · rw [hnil] at hf
      cases hf
    · rw [hsingle, List.mem_singleton] at hf
      exact ⟨sortType, hf ▸ hg⟩
    · exact htypes f hf

end Declared

/-! ## The key as the definitions want it -/

/-- The attribute of an item has the name and the type of a definition. -/
def KeyAttribute.Admits (d : KeyAttribute) (entry : String × AttributeValue) : Prop :=
  entry.1 = d.name ∧ entry.2.type? = some d.type

section Items

variable {k : KeyDecl} {schema : Schema} {o : Options} {definitions : List KeyAttribute}
  {value : String → Scalar} {es : Entries MapKey Data} {path : String}
  {key : Entries String AttributeValue}

lemma OfFieldTypes.storable (hvalue : OfFieldTypes schema k value)
    (h : k.attributes schema o = .ok definitions) : Storable k value := by
  have hstored : ∀ f ∈ k.fields, value f.name ≠ .null ∧
      ∃ a, (Data.scalar (value f.name)).stored = .ok a := by
    intro f hf
    obtain ⟨type, htype⟩ := KeyDecl.fieldTypes_ok h f hf
    obtain ⟨hne, a, ha, -⟩ := (hvalue f hf type htype).stored
    exact ⟨hne, a, ha⟩
  exact ⟨fun f hf => (hstored f hf).1, fun f hf => (hstored f hf).2⟩

/-- A field of the key is stored under the type of the field. -/
lemma OfFieldTypes.admits (hvalue : OfFieldTypes schema k value) (hes : Carries k value es)
    {f : FieldDef} (hf : f ∈ k.fields) {type : AttributeType}
    (htype : schema.attributeType f = .ok type) {a : AttributeValue}
    (ha : (es.field f.name).stored = .ok a) : KeyAttribute.Admits ⟨f.name, type⟩ (f.name, a) := by
  obtain ⟨-, b, hb, hbtype⟩ := (hvalue f hf type htype).stored
  rw [Entries.field, hes f hf] at ha
  obtain rfl := Except.ok.inj (hb.symm.trans ha)
  exact ⟨rfl, hbtype⟩

/-- Two attributes with different names are a key as they stand. -/
lemma putAll_pair {name name' : String} (hne : name ≠ name') (a b : AttributeValue) :
    Entries.putAll [(name, a)] [(name', b)] = [(name, a), (name', b)] := by
  have hbeq : (name == name') = false := by simpa using hne
  rw [Entries.putAll_cons, Entries.putAll_nil, Entries.put_cons, hbeq]
  rfl

/-- **The key has the defined attributes**, in order and under their types. -/
theorem itemKey_admitted (h : k.attributes schema o = .ok definitions) (hk : k.Legible o)
    (hsep : ∃ c ∈ o.nameSeparator.toList, isSchemaChar c = false)
    (hvalue : OfFieldTypes schema k value) (hes : Carries k value es)
    (hkey : itemKey k o path es = .ok key) : List.Forall₂ KeyAttribute.Admits definitions key := by
  obtain ⟨a, sort, ha, hsort, rfl⟩ := itemKey_eq_ok hkey
  obtain ⟨type, htype, hcases⟩ := KeyDecl.attributes_cases h
  have hpartition := hvalue.admits hes (f := k.partition) (by simp [KeyDecl.fields]) htype ha
  rcases hcases with ⟨hnil, rfl⟩ | ⟨f, sortType, hsingle, hf, rfl⟩ | ⟨hcomposite, -, rfl⟩
  · rw [storedSort, KeyDecl.sortFields, hnil] at hsort
    cases hsort
    exact .cons hpartition .nil
  · rw [storedSort, KeyDecl.sortFields, hsingle] at hsort
    cases hstored : (es.field f.name).stored with
    | error e =>
      simp only [FieldDef.names, List.map_cons, List.map_nil, hstored] at hsort
      cases hsort
    | ok b =>
      simp only [FieldDef.names, List.map_cons, List.map_nil, hstored] at hsort
      cases hsort
      -- the fields of a key are distinct, so neither attribute replaces the other
      have hne : k.partition.name ≠ f.name := by
        have hnotMem := k.partition_notMem_sort
        rw [hsingle] at hnotMem
        simpa using hnotMem
      rw [putAll_pair hne]
      have hmem : f ∈ k.fields := by simp [KeyDecl.fields, hsingle]
      exact .cons hpartition (.cons (hvalue.admits hes hmem hf hstored) .nil)
  · -- whatever the types of the sort fields, their text is what is stored
    obtain ⟨sort', hsort', htext⟩ :=
      Template.storedSort_of_carries o (hvalue.storable h)
    obtain rfl := Except.ok.inj ((hsort' path es hes).symm.trans hsort)
    obtain ⟨t, -, rfl⟩ := htext hcomposite
    -- a partition field has a name of the schema, and a synthetic attribute has not
    have hne : k.partition.name ≠ compositeName o k.sortFields := by
      intro heq
      obtain ⟨c, hc, hschema⟩ := hsep
      have hname := hk.partition
      rw [heq, isSchemaName_compositeName hcomposite hc hschema] at hname
      cases hname
    rw [putAll_pair hne]
    exact .cons hpartition (.cons ⟨rfl, rfl⟩ .nil)

end Items

/-! ## The new key of a table -/

namespace Table

section Replaced

variable {t t' : Table} {a : KeyAttribute} {as : List KeyAttribute}

/-- What is registered is defined with its type, and what was defined before still is. -/
lemma register_attributeType? {u : Unit} (h : register a t = .ok u t') :
    t'.attributeType? a.name = some a.type ∧
      ∀ name type, t.attributeType? name = some type → t'.attributeType? name = some type := by
  rw [register_apply] at h
  cases hfind : t.attributes.find? (·.name == a.name) with
  | none =>
    simp only [hfind] at h
    cases h
    constructor
    · rw [attributeType?, List.find?_append, hfind]
      simp
    · intro name type htype
      obtain ⟨d, hd, hdtype⟩ := Option.map_eq_some_iff.mp htype
      rw [attributeType?, List.find?_append, hd]
      exact congrArg some hdtype
  | some d =>
    simp only [hfind] at h
    split at h
    · rename_i htype
      cases h
      refine ⟨?_, fun _ _ => id⟩
      rw [attributeType?, hfind, Option.map_some, htype]
    · cases h

lemma registerAll_attributeType? {u : Unit} (h : registerAll as t = .ok u t') :
    (∀ a ∈ as, t'.attributeType? a.name = some a.type) ∧
      ∀ name type, t.attributeType? name = some type → t'.attributeType? name = some type := by
  induction as generalizing t with
  | nil =>
    cases h
    exact ⟨by simp, fun _ _ => id⟩
  | cons a as ih =>
    obtain ⟨_, t₁, hregister, hrest⟩ := of_bind_ok h
    obtain ⟨ha, hkept⟩ := register_attributeType? hregister
    obtain ⟨has, hkept'⟩ := ih hrest
    constructor
    · intro b hb
      rcases List.mem_cons.mp hb with rfl | hb
      · exact hkept' _ _ ha
      · exact has b hb
    · intro name type htype
      exact hkept' name type (hkept name type htype)

lemma keyElements?_keySchemaOf (partition : String) (sort : Option String) :
    keyElements? (keySchemaOf partition sort) =
      some (⟨partition, .hash⟩, sort.map fun name => ⟨name, .range⟩) := by
  cases sort <;> rfl

/-- A table has the key that it was given last. -/
lemma keySchema_replacePrimaryKey {partition : String} {sort : Option String} {e : Event}
    (h : replacePrimaryKey (keySchemaOf partition sort) as t = .ok e t') :
    t'.keySchema = keySchemaOf partition sort := by
  obtain ⟨_, _, helements, hregister⟩ := replacePrimaryKey_ok h
  rw [keyElements?_keySchemaOf] at helements
  cases helements
  rw [(registerAll_ok hregister).same]
  cases sort <;> rfl

/-- The definitions that come with a new key are those of the table. -/
lemma attributeType?_replacePrimaryKey {schema : List KeyElement} {e : Event}
    (h : replacePrimaryKey schema as t = .ok e t') :
    ∀ a ∈ as, t'.attributeType? a.name = some a.type := by
  obtain ⟨_, _, -, hregister⟩ := replacePrimaryKey_ok h
  exact (registerAll_attributeType? hregister).1

end Replaced

/-- The data are the key of an item of the table: the attributes of the primary key, in order,
each under the letter of its defined type. -/
def Keys (t : Table) (key : Data) : Prop :=
  ∃ entries : Entries String Data, key = .object entries ∧
    entries.keys = t.keySchema.map KeyElement.name ∧
    ∀ entry ∈ entries, ∃ type payload, t.attributeType? entry.1 = some type ∧
      entry.2 = .object [(type.letter, payload)]

/-- A key with the attributes that are defined fits a table with these definitions. -/
lemma Keys.of_admitted {t : Table} {definitions : List KeyAttribute}
    {key : Entries String AttributeValue}
    (hnames : definitions.map KeyAttribute.name = t.keySchema.map KeyElement.name)
    (htypes : ∀ a ∈ definitions, t.attributeType? a.name = some a.type)
    (h : List.Forall₂ KeyAttribute.Admits definitions key) :
    t.Keys (.object (key.mapValues AttributeValue.data)) := by
  refine ⟨_, rfl, ?_, ?_⟩
  · rw [← hnames]
    clear hnames htypes
    induction h with
    | nil => rfl
    | cons hadmits _ ih => exact congrArg₂ List.cons hadmits.1 ih
  · clear hnames
    induction h with
    | nil => simp [Entries.mapValues]
    | @cons d entry _ _ hadmits _ ih =>
      intro entry' hentry'
      rcases List.mem_cons.mp hentry' with rfl | hentry'
      · obtain ⟨payload, hpayload⟩ := AttributeValue.data_of_type? hadmits.2
        refine ⟨d.type, payload, ?_, hpayload⟩
        rw [hadmits.1]
        exact htypes d (by simp)
      · exact ih (fun a ha => htypes a (by simp [ha])) entry' hentry'

end Table

namespace Template

open Snippet Session

/-- A map with the values of the fields of a key. -/
def carrier (k : KeyDecl) (value : String → Scalar) : Entries MapKey Data :=
  k.fields.map fun f => (.text f.name, .scalar (value f.name))

lemma carries_carrier (k : KeyDecl) (value : String → Scalar) :
    Carries k value (carrier k value) := by
  intro f hf
  rw [carrier]
  generalize k.fields = fs at hf
  induction fs with
  | nil => cases hf
  | cons g fs ih =>
    rw [List.map_cons, Entries.get?_cons]
    split
    · rename_i hname
      have heq : g.name = f.name := by simpa [MapKey.text_beq_iff] using hname
      rw [heq]
    · rename_i hname
      rcases List.mem_cons.mp hf with rfl | hf
      · exact absurd ReflBEq.rfl hname
      · exact ih hf

/-- **The key of an item fits its table.** When a table has got its declared primary key, the
snippet that reads the key of an item from the arguments and the one that reads it from the merged
values leave the same key for values of the declared types; it has the key attributes of the
table, in order and under their defined types. The attribute of a composite key is a text. -/
theorem modelObjectKey_fits {k : KeyDecl} {s s' : Session} {value : String → Scalar}
    (hk : k.Legible s.options)
    (hsep : ∃ c ∈ s.options.nameSeparator.toList, isSchemaChar c = false)
    (hreplace : replacePrimaryKey k s = .ok () s') (hvalue : OfFieldTypes s.schema k value) :
    ∃ t key, s'.tables.get? k.object.name = some t ∧ t.keySchema = k.schema s.options ∧
      t.Keys key ∧
      (k.isComposite = true → t.attributeType? (compositeName s.options k.sortFields) = some .s) ∧
      (∀ (r : Resolver) slot separator request, Carries k value request.arguments.texts →
        Leaves request separator (r.injected slot [some (setPrimaryKey k false s.options)])
          ["stash", "metadata", "modelObjectKey"] key) ∧
      ∀ (r : Resolver) slot separator request input, Writes request k value input →
        Leaves request separator
          (r.injected slot [some mergeInputsAndDefaults, some (setPrimaryKey k true s.options)])
          ["stash", "metadata", "modelObjectKey"] key := by
  obtain ⟨t₀, definitions, e, t, -, hdefinitions, hrun, htables⟩ := replacePrimaryKey_ok hreplace
  obtain ⟨key, hkey, -⟩ := itemKey_of_carries s.options (hvalue.storable hdefinitions)
  -- the key depends on the values only, so it can be read off a map that has nothing else
  have hadmitted := itemKey_admitted hdefinitions hk hsep hvalue (carries_carrier k value)
    (hkey mergedValues _ (carries_carrier k value))
  have hschema : t.keySchema = k.schema s.options := Table.keySchema_replacePrimaryKey hrun
  have htypes := Table.attributeType?_replacePrimaryKey hrun
  refine ⟨t, _, ?_, hschema, .of_admitted ?_ htypes hadmitted, ?_, ?_, ?_⟩
  · rw [htables, Entries.get?_put_self]
  · rw [hschema, KeyDecl.attributes_names hdefinitions]
  · intro hcomposite
    obtain ⟨type, -, hcases⟩ := KeyDecl.attributes_cases hdefinitions
    rcases hcases with ⟨hnil, -⟩ | ⟨f, -, hsingle, -⟩ | ⟨-, -, rfl⟩
    · simp [KeyDecl.isComposite, hnil] at hcomposite
    · simp [KeyDecl.isComposite, hsingle] at hcomposite
    · exact htypes ⟨compositeName s.options k.sortFields, .s⟩ (by simp)
  · intro r slot separator request hcarries
    exact leaves_get hk hcarries hkey
  · intro r slot separator request input hwrites
    exact leaves_delete hk hwrites hkey

/-- Memos are kept by status, in the order of their months. -/
def filingKey : KeyDecl where
  object := memoType
  partition := { name := "status", typeName := "String" }
  sort := [{ name := "year", typeName := "Int" }, { name := "month", typeName := "Int" }]
  sort_nodup := nodup_yearMonth
  partition_notMem_sort := status_notMem_yearMonth

/-- Scalars for an open memo of March. -/
def filingValue : String → Scalar
  | "status" => .text "open"
  | "year" => .int 2024
  | _ => .int 3

/-- The months are numbers, and the attribute that is composed of them is a text. -/
theorem modelObjectKey_fits_filing :
    ∃ s' t key, replacePrimaryKey filingKey (memoSession memoType "createMemo") = .ok () s' ∧
      s'.tables.get? "Memo" = some t ∧ t.Keys key ∧ t.attributeType? "year#month" = some .s ∧
      Leaves
        { arguments := [("status", .text "open"), ("month", .int 3), ("year", .int 2024)] } "#"
        (({ typeName := "Query", fieldName := "getMemo" } : Resolver).injected "postAuth"
          [some (setPrimaryKey filingKey false {})])
        ["stash", "metadata", "modelObjectKey"] key := by
  obtain ⟨s', hreplace⟩ : ∃ s', replacePrimaryKey filingKey (memoSession memoType "createMemo") =
      .ok () s' := ⟨_, rfl⟩
  have hk : filingKey.Legible {} := ⟨by decide, by decide⟩
  have hvalue : OfFieldTypes (memoSession memoType "createMemo").schema filingKey filingValue := by
    intro f hf type htype
    simp only [KeyDecl.fields, filingKey, List.mem_cons, List.not_mem_nil, or_false] at hf
    rcases hf with rfl | rfl | rfl
    · cases htype
      exact .text "open"
    · cases htype
      exact .int 2024 ⟨_, rfl⟩
    · cases htype
      exact .int 3 ⟨_, rfl⟩
  obtain ⟨t, key, htable, -, hkeys, htype, hread, -⟩ :=
    modelObjectKey_fits hk ⟨'#', by decide, by decide⟩ hreplace hvalue
  refine ⟨s', t, key, hreplace, htable, hkeys, htype rfl, hread _ _ _ _ ?_⟩
  intro f hf
  simp only [KeyDecl.fields, filingKey, List.mem_cons, List.not_mem_nil, or_false] at hf
  rcases hf with rfl | rfl | rfl <;> rfl

end Template

end TableKeys
