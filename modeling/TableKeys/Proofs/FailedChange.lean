/-
# What a failed change leaves of a table

A change of a table checks some things before it does anything, and others on the way: the type
of an attribute is looked at only when the attribute is registered. So a change that fails may
have done a part of its work.

* `failed_change_spares_iff`: the indexes of the table are always as before, and the whole table
  is exactly if the change fails in time (`Change.Spares`);
* `not_consistent_of_conflict`: the replacement of a primary key that fails on a type, although
  the definitions fit the key, leaves a table whose definitions contradict its key.
-/
import TableKeys.Proofs.TableRun

namespace TableKeys

namespace Table

/-- A change of a table with all that it is given. -/
inductive Change where
  | replaceKey (schema : List KeyElement) (definitions : List KeyAttribute)
  | addLocal (i : LocalIndex)
  | addGlobal (i : GlobalIndex)

/-- Makes the change. -/
def Change.run : Change → TableChange Event
  | replaceKey schema definitions => replacePrimaryKey schema definitions
  | addLocal i => addLocalIndex i
  | addGlobal i => addGlobalIndex i

/-- Definitions to which others are added one by one, up to the first one that says another type
of a name that is there. -/
def definedUpTo (known : List KeyAttribute) : List KeyAttribute → List KeyAttribute
  | [] => known
  | a :: as =>
    match known.find? (·.name == a.name) with
    | none => definedUpTo (known ++ [a]) as
    | some d => if d.type = a.type then definedUpTo known as else known

/-- **A change fails in time** if it can do no harm: it adds a local index; or it adds a global
index whose name is in use or whose partition attribute is defined; or it replaces the primary
key and is refused at once, or has done nothing but to put back what it took away. -/
def Change.Spares (t : Table) : Change → Prop
  | replaceKey schema definitions => ∀ partition sort,
      keyElements? schema = some (partition, sort) → undefinedNames schema definitions = [] →
        typed definitions partition.name = t.partition ∧
          sort.map (fun e => typed definitions e.name) = t.sort ∧
          definedUpTo t.keptAttributes definitions = t.attributes
  | addLocal _ => True
  | addGlobal i => i.name ∈ t.indexNames ∨ i.partition.name ∈ t.attributes.map KeyAttribute.name

variable {t t' : Table} {a : KeyAttribute} {as : List KeyAttribute} {e : TableError}

/-! ## Registering that fails -/

/-- An attribute that is not registered conflicts with a definition, and nothing has changed. -/
lemma register_error (h : register a t = .error e t') :
    t' = t ∧ ∃ d ∈ t.attributes, d.name = a.name ∧ d.type ≠ a.type := by
  rw [register_apply] at h
  cases hfind : t.attributes.find? (·.name == a.name) with
  | none =>
    rw [hfind] at h
    cases h
  | some d =>
    simp only [hfind] at h
    split at h
    · cases h
    · rename_i htype
      cases h
      have hname : d.name = a.name := by simpa using List.find?_some hfind
      exact ⟨rfl, d, List.mem_of_find?_eq_some hfind, hname, htype⟩

/-- Where at most one attribute is registered, a failure changes nothing. -/
lemma registerAll_toList_error {o : Option KeyAttribute}
    (h : registerAll o.toList t = .error e t') : t' = t := by
  cases o with
  | none => cases h
  | some a =>
    rcases of_bind_error h with h | ⟨_, t₁, -, h⟩
    · exact (register_error h).1
    · cases h

/-- The attributes before the one that is in conflict are defined. -/
lemma registerAll_error (h : registerAll as t = .error e t') :
    t' = { t with attributes := definedUpTo t.attributes as } ∧
      ∃ a ∈ as, ∃ d ∈ t'.attributes, d.name = a.name ∧ d.type ≠ a.type := by
  induction as generalizing t with
  | nil => cases h
  | cons a as ih =>
    rcases of_bind_error h with h | ⟨_, t₁, hok, h⟩
    · obtain ⟨rfl, hconflict⟩ := register_error h
      refine ⟨?_, a, by simp, hconflict⟩
      rw [register_apply] at h
      rw [definedUpTo]
      cases hfind : t'.attributes.find? (·.name == a.name) with
      | none =>
        rw [hfind] at h
        cases h
      | some d =>
        simp only [hfind] at h ⊢
        split at h
        · cases h
        · rename_i htype
          rw [if_neg htype]
    · -- the first one is registered, and the conflict comes later
      obtain ⟨hleft, b, hb, hconflict⟩ := ih h
      refine ⟨?_, b, by simp [hb], hconflict⟩
      rw [register_apply] at hok
      rw [hleft, definedUpTo]
      cases hfind : t.attributes.find? (·.name == a.name) with
      | none =>
        simp only [hfind] at hok ⊢
        cases hok
        rfl
      | some d =>
        simp only [hfind] at hok ⊢
        split at hok
        · rename_i htype
          cases hok
          rw [if_pos htype]
        · cases hok

/-! ## Adding an index -/

lemma ensureUnusedName_error {name : String} (h : ensureUnusedName name t = .error e t') :
    name ∈ t.indexNames ∧ t' = t := by
  have hrun : (if t.indexNames.contains name then
      throw (TableError.indexExists t.logicalId name) else return () : TableChange Unit) t =
        .error e t' := h
  split at hrun
  · rename_i hused
    cases hrun
    exact ⟨by simpa using hused, rfl⟩
  · cases hrun

/-- A local index is added as a whole or not at all. -/
lemma addLocalIndex_error {i : LocalIndex} (h : addLocalIndex i t = .error e t') : t' = t := by
  rcases of_bind_error h with h | ⟨_, t₀, hensure, h⟩
  · exact (ensureUnusedName_error h).2
  · obtain ⟨-, rfl⟩ := ensureUnusedName_ok hensure
    rcases of_bind_error h with h | ⟨_, t₁, -, h⟩
    · exact registerAll_toList_error h
    · cases h

/-- A global index that is not added may leave its partition attribute behind. -/
lemma addGlobalIndex_error {i : GlobalIndex} (h : addGlobalIndex i t = .error e t') :
    (t' = t ∧ (i.name ∈ t.indexNames ∨
        i.partition.name ∈ t.attributes.map KeyAttribute.name)) ∨
      i.name ∉ t.indexNames ∧ i.partition.name ∉ t.attributes.map KeyAttribute.name ∧
        t' = { t with attributes := t.attributes ++ [i.partition] } := by
  rcases of_bind_error h with h | ⟨_, t₀, hensure, h⟩
  · obtain ⟨hused, rfl⟩ := ensureUnusedName_error h
    exact .inl ⟨rfl, .inl hused⟩
  · obtain ⟨hunused, rfl⟩ := ensureUnusedName_ok hensure
    rcases of_bind_error h with h | ⟨_, t₁, -, h⟩
    · rcases of_bind_error h with h | ⟨_, t₁, hpartition, h⟩
      · obtain ⟨rfl, d, hd, hname, -⟩ := register_error h
        exact .inl ⟨rfl, .inr (List.mem_map.mpr ⟨d, hd, hname⟩)⟩
      · -- the sort attribute is in conflict; the partition attribute may be new
        obtain rfl := registerAll_toList_error h
        rw [register_apply] at hpartition
        cases hfind : t.attributes.find? (·.name == i.partition.name) with
        | none =>
          simp only [hfind] at hpartition
          cases hpartition
          refine .inr ⟨hunused, fun hmem => ?_, rfl⟩
          obtain ⟨d, hd, hname⟩ := List.mem_map.mp hmem
          exact List.find?_eq_none.mp hfind d hd (by simp [hname])
        | some d =>
          have hname : d.name = i.partition.name := by simpa using List.find?_some hfind
          simp only [hfind] at hpartition
          split at hpartition
          · cases hpartition
            exact .inl ⟨rfl, .inr (List.mem_map.mpr ⟨d, List.mem_of_find?_eq_some hfind, hname⟩)⟩
          · cases hpartition
    · cases h

/-! ## Replacing the primary key -/

section PrimaryKey

variable {schema : List KeyElement} {definitions : List KeyAttribute}

/-- The replacement of a primary key is refused at once, or it fails on a definition when the
key is replaced and the definitions before that one are made. -/
lemma replacePrimaryKey_error (h : replacePrimaryKey schema definitions t = .error e t') :
    ((keyElements? schema = none ∧ e = .malformedSchema t.logicalId schema ∨
        undefinedNames schema definitions ≠ [] ∧
          e = .undefinedAttributes t.logicalId (undefinedNames schema definitions)) ∧ t' = t) ∨
      ∃ partition sort, keyElements? schema = some (partition, sort) ∧
        undefinedNames schema definitions = [] ∧
        registerAll definitions (t.rekeyed (typed definitions partition.name)
          (sort.map fun e => typed definitions e.name)) = .error e t' := by
  rw [replacePrimaryKey_apply] at h
  cases helements : keyElements? schema with
  | none =>
    rw [helements] at h
    cases h
    exact .inl ⟨.inl ⟨rfl, rfl⟩, rfl⟩
  | some elements =>
    obtain ⟨partition, sort⟩ := elements
    simp only [helements] at h
    split at h
    · rename_i hdefined
      refine .inr ⟨partition, sort, rfl, List.isEmpty_iff.mp hdefined, ?_⟩
      rcases of_bind_error h with hregister | ⟨_, t₁, -, hreturn⟩
      · exact hregister
      · cases hreturn
    · rename_i hdefined
      cases h
      exact .inl ⟨.inr ⟨by simpa using hdefined, rfl⟩, rfl⟩

/-- **The definitions contradict the key.** If every attribute of the new key has one definition,
and one of them is in conflict with an index, the table is left with the new key and with the
definition that the index needs. -/
theorem not_consistent_of_conflict {table name : String} {existing new : AttributeType}
    (honce : (definitions.map KeyAttribute.name).Nodup)
    (hnames : ∀ a ∈ definitions, a.name ∈ schema.map KeyElement.name)
    (h : replacePrimaryKey schema definitions t =
      .error (.conflictingType table name existing new) t') : ¬ t'.Consistent := by
  intro hconsistent
  rcases replacePrimaryKey_error h with ⟨hrefused, rfl⟩ | ⟨partition, sort, helements, -, hregister⟩
  · rcases hrefused with ⟨-, he⟩ | ⟨-, he⟩ <;> cases he
  · obtain ⟨hleft, a, ha, d, hd, hname, htype⟩ := registerAll_error hregister
    obtain ⟨element, helement, helementName⟩ := List.mem_map.mp (hnames a ha)
    -- the key has been set already, so the attribute in conflict is one of its own
    have htyped : typed definitions a.name = a :=
      eq_of_name_eq honce (typed_mem (List.mem_map_of_mem ha)) ha rfl
    have hkey : a ∈ t'.primaryAttributes := by
      rw [hleft]
      show a ∈ (t.rekeyed (typed definitions partition.name)
        (sort.map fun e => typed definitions e.name)).primaryAttributes
      rw [primaryAttributes_rekeyed]
      refine List.mem_map.mpr ⟨element, (mem_of_keyElements? helements element).mp helement, ?_⟩
      rw [helementName, htyped]
    exact htype (hconsistent.types d hd a (List.mem_append_left _ hkey) hname.symm).symm

end PrimaryKey

/-! ## Any change -/

/-- **What a failed change leaves.** The indexes are as they were; and so is the rest of the table
exactly if the change failed in time. -/
theorem failed_change_spares_iff {c : Change} (h : c.run t = .error e t') :
    t'.localIndexes = t.localIndexes ∧ t'.globalIndexes = t.globalIndexes ∧
      (t' = t ↔ c.Spares t) := by
  cases c with
  | addLocal i =>
    obtain rfl := addLocalIndex_error h
    exact ⟨rfl, rfl, iff_of_true rfl trivial⟩
  | addGlobal i =>
    rcases addGlobalIndex_error h with ⟨rfl, hintime⟩ | ⟨hunused, hundefined, rfl⟩
    · exact ⟨rfl, rfl, iff_of_true rfl hintime⟩
    · refine ⟨rfl, rfl, iff_of_false (fun heq => ?_) (not_or_intro hunused hundefined)⟩
      have hattributes : t.attributes ++ [i.partition] = t.attributes :=
        congrArg Table.attributes heq
      simp at hattributes
  | replaceKey schema definitions =>
    rcases replacePrimaryKey_error h with
      ⟨hrefused, rfl⟩ | ⟨partition, sort, helements, hdefined, hregister⟩
    · refine ⟨rfl, rfl, iff_of_true rfl fun partition sort helements hdefined => ?_⟩
      rcases hrefused with ⟨hmalformed, -⟩ | ⟨hundefined, -⟩
      · rw [hmalformed] at helements
        cases helements
      · exact absurd hdefined hundefined
    · -- key and definitions have been written; only equal ones leave the table as it was
      obtain ⟨rfl, -⟩ := registerAll_error hregister
      refine ⟨rfl, rfl, ?_⟩
      constructor
      · intro heq partition' sort' helements' _
        obtain ⟨rfl, rfl⟩ := Prod.mk.inj (Option.some.inj (helements.symm.trans helements'))
        exact ⟨congrArg Table.partition heq, congrArg Table.sort heq,
          congrArg Table.attributes heq⟩
      · intro hspares
        obtain ⟨hpartition, hsort, hattributes⟩ := hspares partition sort helements hdefined
        rw [rekeyed, hpartition, hsort, hattributes]

/-- An index on email addresses, which are texts. -/
def byEmail : GlobalIndex where
  name := "byEmail"
  partition := { name := "email" }

/-- A table with this index. -/
def contactTable : Table where
  logicalId := "ContactTable"
  partition := defaultPartition
  attributes := [defaultPartition, { name := "email" }]
  globalIndexes := [byEmail]

/-- A primary key with a sort attribute that is a number. -/
def numberedEmails : Change :=
  .replaceKey [⟨"id", .hash⟩, ⟨"email", .range⟩] [defaultPartition, { name := "email", type := .n }]

/-- The key of the table is replaced although the index does not let the sort attribute be a
number. -/
theorem failed_change_spares_iff_contacts :
    Reached [.isGlobal byEmail] contactTable ∧
      ∃ e t', numberedEmails.run contactTable = .error e t' ∧
        t'.globalIndexes = contactTable.globalIndexes ∧ t' ≠ contactTable := by
  have hcreated : Reached [] {
      logicalId := "ContactTable"
      partition := defaultPartition
      attributes := [defaultPartition] } :=
    .created (p := { logicalId := "ContactTable" }) (.of_nil rfl rfl rfl) rfl
  have hfails : numberedEmails.run contactTable =
      .error (.conflictingType "ContactTable" "email" .s .n) { contactTable with
        sort := some { name := "email", type := .n }
        attributes := [{ name := "email" }, defaultPartition] } := rfl
  obtain ⟨-, hglobals, hspares⟩ := failed_change_spares_iff hfails
  refine ⟨.globalAdded hcreated rfl, _, _, hfails, hglobals, fun hsame => ?_⟩
  have hsort := (hspares.mp hsame ⟨"id", .hash⟩ (some ⟨"email", .range⟩) rfl rfl).2.1
  cases hsort

end Table

end TableKeys
