/-
# Name overrides after a slot

Every template that comes into the slot of a mutation notes names of declared composite keys. So
when the slot has run on a request without name overrides, these are the synthetic names of the
composite keys, each with its schema name (`transform_overrides`). Distinct rows of fields have
distinct synthetic names, but one schema name if they have the same words, so the overrides cannot
always be read backwards (`overrides_shared`).
-/
import TableKeys.Proofs.CamelWords
import TableKeys.Proofs.LocalSnippets
import TableKeys.Proofs.Settled
import TableKeys.Proofs.SlotPipeline

namespace TableKeys

open Template Snippet Session

namespace Template

variable {schema : Schema} {o : Options} {ks : List KeyDecl} {is : List IndexDecl}
  {place : String × String} {statements : List Stmt}

/-! ## What declared keys note -/

/-- The pair notes the name of a declared composite key that has an operation at the place. -/
def NotesDeclared (schema : Schema) (o : Options) (ks : List KeyDecl) (is : List IndexDecl)
    (place : String × String) (note : String × String) : Prop :=
  ∃ k ∈ ks ++ is.map IndexDecl.toKeyDecl, k.isComposite = true ∧
    (∃ op, schema.placeOf k.object op = some place) ∧
    note = (compositeName o k.sortFields, compositeArgument k.sortFields)

lemma notesDeclared_of_keyNotes {k : KeyDecl} {op : Operation} {note : String × String}
    (hk : k ∈ ks ++ is.map IndexDecl.toKeyDecl) (hplace : schema.placeOf k.object op = some place)
    (h : note ∈ keyNotes k o) : NotesDeclared schema o ks is place note := by
  rw [keyNotes] at h
  split at h
  · rename_i hcomposite
    exact ⟨k, hk, hcomposite, ⟨op, hplace⟩, List.mem_singleton.mp h⟩
  · cases h

/-- Every template that comes into a slot notes names of declared composite keys. -/
lemma exists_noting (h : Injects schema o ks is place statements)
    (hnames : ∀ k ∈ ks ++ is.map IndexDecl.toKeyDecl,
      '$' ∉ (compositeName o k.sortFields).toList) :
    ∃ row, Noting statements row ∧ ∀ note ∈ row, NotesDeclared schema o ks is place note := by
  cases h with
  | @primary k op hk hplace =>
    have hmem : k ∈ ks ++ is.map IndexDecl.toKeyDecl := List.mem_append_left _ hk
    refine ⟨_, noting_primary (hnames k hmem) op, fun note hnote => ?_⟩
    refine notesDeclared_of_keyNotes hmem hplace ?_
    cases op with
    | create | update => exact hnote
    | _ => cases hnote
  | @index i op hi hplace hany =>
    have hmem : i.toKeyDecl ∈ ks ++ is.map IndexDecl.toKeyDecl :=
      List.mem_append_right _ (List.mem_map_of_mem hi)
    exact ⟨_, noting_index (hnames _ hmem) hany,
      fun note hnote => notesDeclared_of_keyNotes hmem hplace hnote⟩

/-- For every declared composite key the slot of the resolver that creates items has a template
that notes its name. -/
lemma exists_noting_create {k : KeyDecl} (hk : k ∈ ks ++ is.map IndexDecl.toKeyDecl)
    (hcomposite : k.isComposite = true) (hplace : schema.placeOf k.object .create = some place)
    (hname : '$' ∉ (compositeName o k.sortFields).toList) :
    ∃ statements ∈ (byType ks is).flatMap (typeInjected schema o place),
      Noting statements (keyNotes k o) := by
  have hdeclared : declaredOf ks is k.object.name ∈ byType ks is := by
    rw [byType_eq]
    exact List.mem_map_of_mem (mem_declaredTypes.mpr ⟨k, hk, rfl⟩)
  rcases List.mem_append.mp hk with hk | hk
  · refine ⟨_, List.mem_flatMap.mpr ⟨_, hdeclared, ?_⟩, noting_primary hname .create⟩
    refine List.mem_append_left _ (List.mem_flatMap.mpr ⟨k, ?_, ?_⟩)
    · simpa [declaredOf] using hk
    · refine List.mem_flatMap.mpr ⟨.create, by decide, ?_⟩
      rw [injected, if_pos hplace]
      exact List.mem_singleton_self _
  · obtain ⟨i, hi, rfl⟩ := List.mem_map.mp hk
    have hany : (indexSnippets i o .create).any Option.isSome = true := by
      rw [any_indexSnippets, hcomposite]
      rfl
    refine ⟨_, List.mem_flatMap.mpr ⟨_, hdeclared, ?_⟩, noting_index hname hany⟩
    refine List.mem_append_right _ (List.mem_flatMap.mpr ⟨i, ?_, ?_⟩)
    · simpa [declaredOf] using hi
    · refine List.mem_flatMap.mpr ⟨.create, by decide, ?_⟩
      rw [indexInjected, if_pos hany, injected, if_pos hplace]
      exact List.mem_singleton_self _

/-! ## Names of composite keys -/

lemma mem_compositeFields {k : KeyDecl} (hcomposite : k.isComposite = true)
    (hfields : ∀ f ∈ k.sortFields, isSchemaName f = true) : k.sortFields ∈ compositeFields := by
  have hlength : 1 < k.sortFields.length := by
    simpa [KeyDecl.isComposite, KeyDecl.sortFields] using hcomposite
  exact ⟨hlength, hfields⟩

/-- Entries for composite keys can be read back: the synthetic name settles the fields. -/
lemma get?_ofList_notes {notes : List (String × String)} {c : Char}
    (hc : c ∈ o.nameSeparator.toList) (hschema : isSchemaChar c = false)
    (hnotes : ∀ note ∈ notes, ∃ fields ∈ compositeFields,
      note = (compositeName o fields, compositeArgument fields)) {name argument : String} :
    (Entries.ofList notes).get? name = some argument ↔ (name, argument) ∈ notes := by
  rw [Entries.get?_ofList]
  refine ⟨Entries.mem_of_last?, fun hmem => ?_⟩
  refine Entries.last?_eq_some_iff.mpr (fun e he f hf hkey => ?_) _ hmem
  obtain ⟨fs, hfs, rfl⟩ := hnotes e he
  obtain ⟨gs, hgs, rfl⟩ := hnotes f hf
  exact congrArg compositeArgument (injOn_compositeName hc hschema hfs hgs hkey)

/-- Two names of declared composite keys agree exactly if the rows of fields do, and their schema
names agree exactly if the rows have the same words. -/
lemma notesDeclared_compared {c : Char} (hc : c ∈ o.nameSeparator.toList)
    (hschema : isSchemaChar c = false)
    (hfields : ∀ k ∈ ks ++ is.map IndexDecl.toKeyDecl, ∀ f ∈ k.sortFields, isSchemaName f = true)
    {name argument name' argument' : String}
    (h : NotesDeclared schema o ks is place (name, argument))
    (h' : NotesDeclared schema o ks is place (name', argument')) :
    ∃ fs ∈ compositeFields, ∃ gs ∈ compositeFields,
      name = compositeName o fs ∧ name' = compositeName o gs ∧ (name = name' ↔ fs = gs) ∧
      (argument = argument' ↔ fieldWords fs = fieldWords gs) := by
  obtain ⟨k, hk, hcomposite, -, heq⟩ := h
  obtain ⟨k', hk', hcomposite', -, heq'⟩ := h'
  obtain ⟨rfl, rfl⟩ := Prod.mk.inj heq
  obtain ⟨rfl, rfl⟩ := Prod.mk.inj heq'
  have hmem := mem_compositeFields hcomposite (hfields k hk)
  have hmem' := mem_compositeFields hcomposite' (hfields k' hk')
  exact ⟨_, hmem, _, hmem', rfl, rfl, (injOn_compositeName hc hschema).eq_iff hmem hmem',
    compositeArgument_eq_iff hmem.2 hmem'.2⟩

/-! ## The slot -/

lemma exists_forall₂ {α β : Type} {R : α → β → Prop} {as : List α} (h : ∀ a ∈ as, ∃ b, R a b) :
    ∃ bs, List.Forall₂ R as bs := by
  induction as with
  | nil => exact ⟨[], .nil⟩
  | cons a as ih =>
    obtain ⟨hb, hrest⟩ := List.forall_mem_cons.mp h
    obtain ⟨b, hb⟩ := hb
    obtain ⟨bs, hbs⟩ := ih hrest
    exact ⟨b :: bs, .cons hb hbs⟩

/-- When the declarations are in effect, the slot of the resolver that creates items has a template
that notes the name of a declared composite key. -/
lemma exists_noting_slot {s s' : Session} {r r' : Resolver}
    (htransform : transform ks is s = .ok () s') (hr : s.resolvers.get? place = some r)
    (hempty : r.slot s.options.slot = []) (hr' : s'.resolvers.get? place = some r')
    {k : KeyDecl} (hk : k ∈ ks ++ is.map IndexDecl.toKeyDecl) (hcomposite : k.isComposite = true)
    (hplace : s.schema.placeOf k.object .create = some place)
    (hname : '$' ∉ (compositeName s.options k.sortFields).toList) :
    ∃ t ∈ r'.slot s.options.slot, Noting (t.stages.map Node.asStmt) (keyNotes k s.options) := by
  have hshelves : s.Shelves s.schema s.options place [] :=
    ⟨rfl, rfl, r, hr, by rw [Resolver.bodies, hempty]; rfl⟩
  obtain ⟨-, -, r₁, hr₁, hbodies⟩ := appends_transformTypes _ s s' () _ hshelves htransform
  obtain rfl := Option.some.inj (hr'.symm.trans hr₁)
  obtain ⟨statements, hmem, hkey⟩ := exists_noting_create hk hcomposite hplace hname
  rw [List.nil_append] at hbodies
  rw [← hbodies, Resolver.bodies] at hmem
  obtain ⟨t, ht, rfl⟩ := List.mem_map.mp hmem
  exact ⟨t, ht, hkey⟩

/-- A slot whose templates note these names leaves them in a request without name overrides. -/
lemma follow_overrides {r : Resolver} {slot separator : String} {request : Request} {v : Data}
    {rows : List (List (String × String))}
    (hrows : List.Forall₂ (fun t row => Noting (t.stages.map Node.asStmt) row) (r.slot slot) rows)
    (hnone : request.metadata.nameOverrides = none)
    (hok : (evaluate request (r.runSlot separator slot)).result = .ok v) :
    (evaluate request (r.runSlot separator slot)).context.follow
      ["stash", "metadata", nameOverridesName] = overridesData (Entries.ofList rows.flatten) := by
  obtain ⟨R, free, hstart⟩ := Machine.start_guards hnone
  cases hrun : MappingTemplate.runAll separator (r.slot slot) (Machine.start request) with
  | error e m =>
    rw [evaluate_runSlot_error hrun] at hok
    cases hok
  | ok u m =>
    obtain ⟨free', hm⟩ := runAll_noting hrows hstart hrun
    rw [evaluate, runSlot_ok hrun]
    exact hm.read_overrides

/-- **After the slot the name overrides are the names of the composite keys.** Declarations whose
sort fields are named as in a schema are put into effect, and the slot of the resolver that creates
items of a type, empty before, runs on a request without name overrides. If the run goes well, the
overrides have one entry for each composite key of the type, and every entry is that of a declared
composite key. Entries with distinct names belong to distinct rows of fields, and they have one
schema name exactly if these have the same words. -/
theorem transform_overrides {ks : List KeyDecl} {is : List IndexDecl} {s s' : Session}
    {type : ObjectType} {place : String × String} {r : Resolver} {request : Request}
    (htransform : transform ks is s = .ok () s')
    (hplace : s.schema.placeOf type .create = some place)
    (hr : s.resolvers.get? place = some r) (hempty : r.slot s.options.slot = [])
    (hseparator : s.options.nameSeparator = "#")
    (hfields : ∀ k ∈ ks ++ is.map IndexDecl.toKeyDecl, ∀ f ∈ k.sortFields, isSchemaName f = true)
    (hnone : request.metadata.nameOverrides = none) (separator : String) :
    (∃ r', s'.resolvers.get? place = some r' ∧
      ∀ v, (evaluate request (r'.runSlot separator s.options.slot)).result = .ok v →
        ∃ names : Entries String String,
          (evaluate request (r'.runSlot separator s.options.slot)).context.follow
            ["stash", "metadata", "dynamodbNameOverrideMap"] = overridesData names ∧
          (∀ k ∈ ks ++ is.map IndexDecl.toKeyDecl, k.object = type → k.isComposite = true →
            names.get? (compositeName s.options k.sortFields) =
              some (compositeArgument k.sortFields)) ∧
          (∀ name argument, names.get? name = some argument →
            NotesDeclared s.schema s.options ks is place (name, argument)) ∧
          (∀ name argument name' argument', names.get? name = some argument →
            names.get? name' = some argument' →
            ∃ fs ∈ compositeFields, ∃ gs ∈ compositeFields,
              name = compositeName s.options fs ∧ name' = compositeName s.options gs ∧
              (name = name' ↔ fs = gs) ∧
              (argument = argument' ↔ fieldWords fs = fieldWords gs))) ∧
    ∀ fs ∈ compositeFields, ∀ gs ∈ compositeFields,
      compositeArgument fs = compositeArgument gs ↔ fieldWords fs = fieldWords gs := by
  have hc : '#' ∈ s.options.nameSeparator.toList := by rw [hseparator]; decide
  have hschema : isSchemaChar '#' = false := by decide
  have hnames : ∀ k ∈ ks ++ is.map IndexDecl.toKeyDecl,
      '$' ∉ (compositeName s.options k.sortFields).toList := fun k hk =>
    notMem_compositeName (by rw [hseparator]; decide) fun f hf =>
      notMem_of_isSchemaName (hfields k hk f hf) (by decide)
  obtain ⟨r', hr', hgrows⟩ := (transform_grows htransform).kept place r hr
  obtain ⟨new, hslot, hnew⟩ := hgrows.slot
  rw [hempty, List.nil_append] at hslot
  refine ⟨⟨r', hr', fun v hok => ?_⟩,
    fun fs hfs gs hgs => compositeArgument_eq_iff hfs.2 hgs.2⟩
  -- what each template notes
  obtain ⟨rows, hrows⟩ := exists_forall₂ fun t ht => exists_noting (hnew t ht) hnames
  have hdeclared : ∀ note ∈ rows.flatten, NotesDeclared s.schema s.options ks is place note := by
    intro note hnote
    obtain ⟨row, hrow, hmem⟩ := List.mem_flatten.mp hnote
    obtain ⟨t, -, -, hall⟩ := exists_of_mem_right hrows hrow
    exact hall note hmem
  have hread : ∀ {name argument}, (Entries.ofList rows.flatten).get? name = some argument ↔
      (name, argument) ∈ rows.flatten := by
    refine get?_ofList_notes hc hschema fun note hnote => ?_
    obtain ⟨k, hk, hcomposite, -, rfl⟩ := hdeclared note hnote
    exact ⟨_, mem_compositeFields hcomposite (hfields k hk), rfl⟩
  have hnoting : List.Forall₂ (fun t row => Noting (t.stages.map Node.asStmt) row)
      (r'.slot s.options.slot) rows := by
    rw [hslot]
    exact hrows.imp fun _ _ h => h.1
  have hcontext := follow_overrides hnoting hnone hok
  refine ⟨_, hcontext, fun k hk htype hcomposite => ?_, fun name argument h =>
    hdeclared _ (hread.mp h), fun name argument name' argument' h h' => ?_⟩
  · obtain ⟨t, ht, hkey⟩ := exists_noting_slot htransform hr hempty hr' hk hcomposite
      (htype ▸ hplace) (hnames k hk)
    obtain ⟨row, hrow, hnoted, -⟩ := exists_of_mem_right hrows.flip (hslot ▸ ht)
    rw [hread]
    refine List.mem_flatten.mpr ⟨row, hrow, ?_⟩
    rw [hnoted.unique hkey, keyNotes, if_pos hcomposite]
    exact List.mem_singleton_self _
  · exact notesDeclared_compared hc hschema hfields (hdeclared _ (hread.mp h))
      (hdeclared _ (hread.mp h'))

/-- Memos in the order of a status and a year of a date. -/
def statusKey : KeyDecl where
  object := memoType
  partition := { name := "id", typeName := "ID" }
  sort := [{ name := "status", typeName := "String" }, { name := "dateYear", typeName := "Int" }]
  sort_nodup := by decide
  partition_notMem_sort := by decide

/-- Memos by kind, in the order of a date of a status and a year. -/
def kindIndex : IndexDecl where
  object := memoType
  partition := { name := "kind", typeName := "String" }
  sort := [{ name := "statusDate", typeName := "String" }, { name := "year", typeName := "Int" }]
  sort_nodup := by decide
  partition_notMem_sort := by decide
  name := "byKind"
  name_ne := by decide
  queryField := none
  primaryPartition := none

/-- A memo with all fields of the key and the index. -/
def datedMemo : Entries String Data :=
  [("id", .text "m1"), ("kind", .text "note"), ("status", .text "open"), ("dateYear", .int 2024),
    ("statusDate", .text "today"), ("year", .int 2025)]

/-- The dated memo has two overrides, for the synthetic attributes of the key and of the index. -/
theorem transform_overrides_memo :
    ∃ s' r names,
      transform [statusKey] [kindIndex] (memoSession memoType "createMemo") = .ok () s' ∧
      s'.resolvers.get? ("Mutation", "createMemo") = some r ∧
      (evaluate (memoRequest datedMemo) (r.runSlot "#" "postAuth")).context.follow
        ["stash", "metadata", "dynamodbNameOverrideMap"] = overridesData names ∧
      names.get? "status#dateYear" = some "statusDateYear" ∧
      names.get? "statusDate#year" = some "statusDateYear" ∧ names.get? "year#month" = none := by
  have hgoes : ((slotOutcome [statusKey] [kindIndex] (memoSession memoType "createMemo")
      ("Mutation", "createMemo") (memoRequest datedMemo)).bind
        fun outcome => outcome.result.toOption).isSome = true := by decide +kernel
  obtain ⟨v, hv⟩ := Option.isSome_iff_exists.mp hgoes
  obtain ⟨outcome, houtcome, hresult⟩ := Option.bind_eq_some_iff.mp hv
  obtain ⟨s', r, htransform, hr, rfl⟩ := exists_of_slotOutcome houtcome
  have hplace : (memoSession memoType "createMemo").schema.placeOf memoType .create =
      some ("Mutation", "createMemo") := by decide +kernel
  have hfields : ∀ k ∈ [statusKey] ++ [kindIndex].map IndexDecl.toKeyDecl,
      ∀ f ∈ k.sortFields, isSchemaName f = true := by
    intro k hk
    rcases List.mem_pair.mp hk with rfl | rfl <;> decide
  have hnone : (memoRequest datedMemo).metadata.nameOverrides = none := rfl
  obtain ⟨⟨r', hr', hoverrides⟩, -⟩ :=
    transform_overrides htransform hplace rfl rfl rfl hfields hnone "#"
  obtain rfl := Option.some.inj (hr'.symm.trans hr)
  cases hok : (evaluate (memoRequest datedMemo) (r'.runSlot "#" "postAuth")).result with
  | error e =>
    rw [show (memoSession memoType "createMemo").options.slot = "postAuth" from rfl, hok] at hresult
    cases hresult
  | ok v =>
    obtain ⟨names, hcontext, hkeys, hforeign, -⟩ := hoverrides v hok
    refine ⟨s', r', names, htransform, hr, hcontext, ?_, ?_, ?_⟩
    · have hstatus := hkeys statusKey (by simp) rfl rfl
      rwa [show compositeName (memoSession memoType "createMemo").options statusKey.sortFields =
          "status#dateYear" by decide,
        show compositeArgument statusKey.sortFields = "statusDateYear" by decide] at hstatus
    · have hkind := hkeys kindIndex.toKeyDecl (by simp) rfl rfl
      rwa [show compositeName (memoSession memoType "createMemo").options kindIndex.sortFields =
          "statusDate#year" by decide,
        show compositeArgument kindIndex.sortFields = "statusDateYear" by decide] at hkind
    · -- no declaration has this attribute
      cases hyear : names.get? "year#month" with
      | none => rfl
      | some argument =>
        obtain ⟨k, hk, -, -, hnote⟩ := hforeign _ _ hyear
        have hname := (Prod.mk.inj hnote).1
        rcases List.mem_pair.mp hk with rfl | rfl
        · exact absurd hname (by decide)
        · exact absurd hname (by decide)

/-- The text, if the data is one. -/
def textOf? : Data → Option String
  | .scalar (.text t) => some t
  | _ => none

lemma eq_text_of_textOf? {d : Data} {t : String} (h : textOf? d = some t) : d = .text t := by
  unfold textOf? at h
  split at h
  · rw [Option.some.inj h]
  · cases h

/-- **Two synthetic attributes may share a schema name.** The rows `status`, `dateYear` and
`statusDate`, `year` have the same words, so from the overrides it cannot be told which of the two
attributes `statusDateYear` stands for. -/
theorem overrides_shared :
    ∃ s' r v,
      transform [statusKey] [kindIndex] (memoSession memoType "createMemo") = .ok () s' ∧
      s'.resolvers.get? ("Mutation", "createMemo") = some r ∧
      (memoSession memoType "createMemo").schema.placeOf memoType .create =
        some ("Mutation", "createMemo") ∧
      (memoRequest datedMemo).metadata.nameOverrides = none ∧
      (evaluate (memoRequest datedMemo) (r.runSlot "#" "postAuth")).result = .ok v ∧
      statusKey.sortFields ∈ compositeFields ∧ kindIndex.sortFields ∈ compositeFields ∧
      statusKey.sortFields ≠ kindIndex.sortFields ∧
      compositeArgument statusKey.sortFields = compositeArgument kindIndex.sortFields ∧
      (∀ name ∈ ["status#dateYear", "statusDate#year"],
        (evaluate (memoRequest datedMemo) (r.runSlot "#" "postAuth")).context.follow
          ["stash", "metadata", "dynamodbNameOverrideMap", name] = .text "statusDateYear") := by
  have hgoes : (slotOutcome [statusKey] [kindIndex] (memoSession memoType "createMemo")
      ("Mutation", "createMemo") (memoRequest datedMemo)).map (fun outcome =>
        (outcome.result.toOption.map Data.plain,
          ["status#dateYear", "statusDate#year"].map fun name => textOf? (outcome.context.follow
            ["stash", "metadata", "dynamodbNameOverrideMap", name]))) =
      some (some "None", [some "statusDateYear", some "statusDateYear"]) := by
    decide +kernel
  obtain ⟨outcome, houtcome, hparts⟩ := Option.map_eq_some_iff.mp hgoes
  obtain ⟨s', r, htransform, hr, rfl⟩ := exists_of_slotOutcome houtcome
  obtain ⟨hresult, hnames⟩ := Prod.mk.inj hparts
  cases hok : (evaluate (memoRequest datedMemo) (r.runSlot "#" "postAuth")).result with
  | error e =>
    rw [show (memoSession memoType "createMemo").options.slot = "postAuth" from rfl, hok] at hresult
    cases hresult
  | ok v =>
    refine ⟨s', r, v, htransform, hr, by decide +kernel, rfl, hok, ⟨by decide, by decide⟩,
      ⟨by decide, by decide⟩, by decide, by decide, ?_⟩
    obtain ⟨hstatus, hrest⟩ := List.cons.inj hnames
    obtain ⟨hkind, -⟩ := List.cons.inj hrest
    intro name hname
    rcases List.mem_pair.mp hname with rfl | rfl
    · exact eq_text_of_textOf? hstatus
    · exact eq_text_of_textOf? hkind

end Template

end TableKeys
