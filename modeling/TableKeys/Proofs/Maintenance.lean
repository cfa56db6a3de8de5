/-
# Synthetic attributes after a transformation

A type with a primary key and indexes is transformed; then its items are created and updated.
Every composite key is maintained as a whole (`transform_maintains`): input that has some but
not all fields of an index is refused, and all other input gets the synthetic attribute of the
primary key and of each index whose fields it has, and nothing else.

The resolver must not serve another operation as well: what is injected for deleting an item
writes the synthetic attribute of an index without looking at the input
(`maintained_unless_shared`).
-/
import TableKeys.Proofs.SlotRun

namespace TableKeys

open Template Snippet Session

/-- The first index with two or more sort fields of which the input has some but not all, with
the first field that it does not have. -/
def firstMissing? (input : Entries MapKey Data) (is : List IndexDecl) :
    Option (IndexDecl × String) :=
  is.findSome? fun i =>
    if i.isComposite then (missingField? input i.sortFields).map (i, ·) else none

/-- The composite keys whose synthetic attributes belong into the input: the primary key, and
the indexes whose fields the input has. -/
def maintained (k : KeyDecl) (is : List IndexDecl) (input : Entries MapKey Data) :
    List KeyDecl :=
  (if k.isComposite then [k] else []) ++
    is.flatMap fun i => if i.isComposite && input.hasSome i.sortFields then [i.toKeyDecl] else []

/-- The entry is the synthetic attribute of a key with the encoded key as its value. -/
def Composes (o : Options) (es : Entries MapKey Data) (k : KeyDecl) (entry : MapKey × Data) :
    Prop :=
  ∃ t, encodeComposite o (k.sortFields.map es.field) = .ok t ∧
    entry = (.text (compositeName o k.sortFields), .text t)

namespace Template

/-- The templates in the slot of a resolver that serves some mutations. -/
def keepers (is : List IndexDecl) (mutations : List KeyMutation) : List Keeper :=
  mutations.map (fun _ => .primary) ++
    is.flatMap fun i => if i.isComposite then mutations.map (.index i) else []

section Keepers

variable {k : KeyDecl} {is : List IndexDecl} {input : Entries MapKey Data} {o : Options}
  {mutations : List KeyMutation}

lemma among_keepers : ∀ w ∈ keepers is mutations, w.Among is := by
  intro w hw
  rcases List.mem_append.mp hw with hw | hw
  · obtain ⟨_, -, rfl⟩ := List.mem_map.mp hw
    trivial
  · obtain ⟨i, hi, hw⟩ := List.mem_flatMap.mp hw
    split at hw
    · rename_i hcomposite
      obtain ⟨_, -, rfl⟩ := List.mem_map.mp hw
      exact ⟨hi, hcomposite⟩
    · cases hw

lemma refusal?_index (i : IndexDecl) (mutation : KeyMutation) (rest : List KeyMutation) :
    ((mutation :: rest).map (Keeper.index i)).findSome? (Keeper.refusal? input) =
      (missingField? input i.sortFields).map fun f =>
        .raised (refusalText i.name mutation f) .null := by
  rw [List.map_cons, List.findSome?_cons, Keeper.refusal?]
  cases hmissing : missingField? input i.sortFields with
  | some f => rfl
  | none =>
    simp only [Option.map_none]
    refine List.findSome?_eq_none_iff.mpr fun w hw => ?_
    obtain ⟨_, -, rfl⟩ := List.mem_map.mp hw
    rw [Keeper.refusal?, hmissing, Option.map_none]

/-- The first template that refuses the input is that of the first index with a missing field. -/
lemma refusal?_keepers (mutation : KeyMutation) (rest : List KeyMutation) :
    (keepers is (mutation :: rest)).findSome? (Keeper.refusal? input) =
      (firstMissing? input is).map fun p => .raised (refusalText p.1.name mutation p.2) .null := by
  have hprimary : ((mutation :: rest).map fun _ => Keeper.primary).findSome?
      (Keeper.refusal? input) = none := by
    refine List.findSome?_eq_none_iff.mpr fun w hw => ?_
    obtain ⟨_, -, rfl⟩ := List.mem_map.mp hw
    rfl
  rw [keepers, List.findSome?_append, hprimary, Option.none_or, firstMissing?]
  induction is with
  | nil => rfl
  | cons i is ih =>
    rw [List.flatMap_cons, List.findSome?_append, ih, List.findSome?_cons]
    split
    · rw [refusal?_index]
      cases missingField? input i.sortFields <;> rfl
    · rfl

lemma putAll_again (m : Entries MapKey Data) (key : MapKey) (d : Data) (rest : List KeyMutation) :
    (m.put key d).putAll (rest.map fun _ => (key, d)) = m.put key d := by
  induction rest with
  | nil => rfl
  | cons _ rest ih => rw [List.map_cons, Entries.putAll_cons, Entries.put_put, ih]

/-- Putting an attribute once for each mutation is putting it once. -/
lemma putAll_repeated (hne : mutations ≠ []) (m : Entries MapKey Data) (k : KeyDecl)
    (e : KeyDecl → MapKey × Data) (b : Bool) :
    m.putAll ((mutations.flatMap fun _ => if b then [k] else []).map e) =
      m.putAll ((if b then [k] else []).map e) := by
  cases b with
  | false =>
    have hnil : (mutations.flatMap fun _ => ([] : List KeyDecl)) = [] :=
      List.flatMap_eq_nil_iff.mpr fun _ _ => rfl
    simp only [Bool.false_eq_true, if_false, hnil]
  | true =>
    match mutations, hne with
    | mutation :: rest, _ =>
      have hmap : ((mutation :: rest).flatMap fun _ => [k]).map e =
          e k :: rest.map fun _ => e k := by
        rw [← List.map_eq_flatMap, List.map_map]
        rfl
      simp only [if_true, hmap]
      exact putAll_again m _ _ rest

/-- Several mutations at one resolver put the same attributes into the input. -/
lemma putAll_keepers (hne : mutations ≠ []) (m : Entries MapKey Data)
    (e : KeyDecl → MapKey × Data) :
    m.putAll (((keepers is mutations).flatMap (Keeper.keys k input)).map e) =
      m.putAll ((maintained k is input).map e) := by
  have hprimary : (mutations.map fun _ => Keeper.primary).flatMap (Keeper.keys k input) =
      mutations.flatMap fun _ => if k.isComposite then [k] else [] := by
    rw [List.flatMap_map]
    rfl
  rw [keepers, maintained, List.flatMap_append, List.map_append, List.map_append,
    Entries.putAll_append, Entries.putAll_append, hprimary, putAll_repeated hne]
  generalize m.putAll _ = m'
  induction is generalizing m' with
  | nil => rfl
  | cons i is ih =>
    rw [List.flatMap_cons, List.flatMap_cons, List.flatMap_append, List.map_append,
      List.map_append, Entries.putAll_append, Entries.putAll_append, ih]
    congr 1
    cases i.isComposite with
    | false => rfl
    | true =>
      rw [if_pos rfl, Bool.true_and, List.flatMap_map]
      exact putAll_repeated hne m' i.toKeyDecl e (input.hasSome i.sortFields)

end Keepers

/-! ## The slot after a transformation -/

section Slot

variable {schema : Schema} {o : Options} {place : String × String} {k : KeyDecl}
  {is : List IndexDecl}

/-- The mutations that a resolver serves. -/
def servedBy (schema : Schema) (type : ObjectType) (place : String × String) :
    List KeyMutation :=
  [KeyMutation.create, .update].filter fun mutation =>
    schema.placeOf type mutation.operation = some place

/-- The resolver serves no operation but creating and updating. -/
def ServesMutations (schema : Schema) (type : ObjectType) (place : String × String) : Prop :=
  ∀ op ∈ [Operation.get, .list, .delete], schema.placeOf type op ≠ some place

lemma indexInjected_eq (i : IndexDecl) (mutation : KeyMutation) :
    indexInjected schema o place i mutation.operation =
      if i.isComposite then
        if schema.placeOf i.object mutation.operation = some place then [upkeep i o mutation]
        else []
      else [] := by
  have hsnippets : indexSnippets i o mutation.operation =
      [validateIndexArgument i mutation, ensureCompositeKey i.toKeyDecl true o] := by
    cases mutation <;> rfl
  unfold indexInjected
  cases hcomposite : i.isComposite with
  | false =>
    have hnone : (indexSnippets i o mutation.operation).any Option.isSome = false := by
      rw [hsnippets]
      simp [validateIndexArgument, ensureCompositeKey, hcomposite]
    rw [if_neg (by simp [hnone])]
    rfl
  | true =>
    have hsome : (indexSnippets i o mutation.operation).any Option.isSome = true := by
      rw [hsnippets, validateIndexArgument_eq hcomposite]
      rfl
    rw [if_pos hsome, if_pos rfl, injected, ← upkeepSnippets, upkeepSnippets_eq hcomposite]

lemma injected_other {type : ObjectType} {op : Operation} (h : schema.placeOf type op ≠ some place)
    (snippets : List (Option Stmt)) : injected schema place type op snippets = [] :=
  if_neg h

lemma map_servedBy {type : ObjectType} (g : KeyMutation → List Stmt) :
    ((if schema.placeOf type .create = some place then [g .create] else []) ++
      if schema.placeOf type .update = some place then [g .update] else []) =
      (servedBy schema type place).map g := by
  by_cases hcreate : schema.placeOf type .create = some place <;>
    by_cases hupdate : schema.placeOf type .update = some place <;>
      simp [servedBy, KeyMutation.operation, hcreate, hupdate]

/-- What a transformation appends to a resolver for mutations. -/
lemma appended_eq (hserves : ServesMutations schema k.object place)
    (htype : ∀ i ∈ is, i.object = k.object) :
    (([Operation.get, .list, .create, .update, .delete].flatMap fun op =>
        injected schema place k.object op (primarySnippets k o op)) ++
      is.flatMap fun i => [Operation.create, .update, .delete].flatMap fun op =>
        indexInjected schema o place i op) =
      (keepers is (servedBy schema k.object place)).map (Keeper.body k o) := by
  -- of the five operations only those that create and update count
  have hprimary : ([Operation.get, .list, .create, .update, .delete].flatMap fun op =>
      injected schema place k.object op (primarySnippets k o op)) =
        (servedBy schema k.object place).map fun _ => Keeper.primary.body k o := by
    simp only [List.flatMap_cons, List.flatMap_nil, injected_other (hserves .get (by simp)),
      injected_other (hserves .list (by simp)), injected_other (hserves .delete (by simp)),
      List.nil_append, List.append_nil]
    exact map_servedBy fun _ => Keeper.primary.body k o
  have hindex : ∀ i ∈ is, ([Operation.create, .update, .delete].flatMap fun op =>
      indexInjected schema o place i op) =
        (if i.isComposite then (servedBy schema k.object place).map (Keeper.index i)
          else []).map (Keeper.body k o) := by
    intro i hi
    have hdelete : indexInjected schema o place i .delete = [] := by
      rw [indexInjected, htype i hi, injected_other (hserves .delete (by simp)), ite_self]
    have hcreate : indexInjected schema o place i .create = _ := indexInjected_eq i .create
    have hupdate : indexInjected schema o place i .update = _ := indexInjected_eq i .update
    simp only [KeyMutation.operation] at hcreate hupdate
    simp only [List.flatMap_cons, List.flatMap_nil, hdelete, hcreate, hupdate, htype i hi,
      List.append_nil]
    cases i.isComposite with
    | false => rfl
    | true =>
      rw [if_pos rfl, if_pos rfl, if_pos rfl, List.map_map]
      exact map_servedBy fun mutation => upkeep i o mutation
  rw [hprimary, keepers, List.map_append, List.map_map, List.map_flatMap]
  congr 1
  exact List.flatMap_congr hindex

lemma slot_transformed {s s' : Session} {r : Resolver}
    (h : transform [k] is s = .ok () s') (htype : ∀ i ∈ is, i.object = k.object)
    (hr : s.resolvers.get? place = some r) (hempty : r.slot s.options.slot = [])
    (hserves : ServesMutations s.schema k.object place) :
    ∃ r', s'.resolvers.get? place = some r' ∧ r'.bodies s.options.slot =
      (keepers is (servedBy s.schema k.object place)).map (Keeper.body k s.options) := by
  have hshelves : s.Shelves s.schema s.options place [] :=
    ⟨rfl, rfl, r, hr, by rw [Resolver.bodies, hempty]; rfl⟩
  obtain ⟨-, -, r', hr', hbodies⟩ := appends_transform htype s s' () [] hshelves h
  rw [List.nil_append, appended_eq hserves htype] at hbodies
  exact ⟨r', hr', hbodies⟩

lemma composes_of_kept {request : Request} {input : Entries MapKey Data} {sc : Scene}
    {keys : List KeyDecl} (h : Kept o request input keys sc) {ks : List KeyDecl}
    (hks : ∀ k ∈ ks, k ∈ keys) :
    List.Forall₂ (Composes o request.merged) ks (ks.map (syntheticEntry o request.merged)) := by
  induction ks with
  | nil => exact .nil
  | cons k ks ih =>
    obtain ⟨t, ht⟩ := h.encoded k (hks k (by simp))
    exact .cons ⟨t, ht, by rw [syntheticEntry, ht]⟩ (ih fun k' hk' => hks k' (by simp [hk']))

lemma mem_keepers_keys {mutations : List KeyMutation} (hne : mutations ≠ [])
    {input : Entries MapKey Data} :
    ∀ k' ∈ maintained k is input, k' ∈ (keepers is mutations).flatMap (Keeper.keys k input) := by
  obtain ⟨mutation, hmutation⟩ := List.exists_mem_of_ne_nil _ hne
  intro k' hk'
  rw [List.mem_flatMap]
  rcases List.mem_append.mp hk' with hk' | hk'
  · exact ⟨.primary, List.mem_append_left _ (List.mem_map.mpr ⟨mutation, hmutation, rfl⟩), hk'⟩
  · obtain ⟨i, hi, hk'⟩ := List.mem_flatMap.mp hk'
    split at hk'
    · rename_i hboth
      obtain ⟨hcomposite, hsome⟩ := Bool.and_eq_true_iff.mp hboth
      refine ⟨.index i mutation, List.mem_append_right _ (List.mem_flatMap.mpr ⟨i, hi, ?_⟩), ?_⟩
      · rw [if_pos hcomposite]
        exact List.mem_map.mpr ⟨mutation, hmutation, rfl⟩
      · rw [Keeper.keys, if_pos hsome]
        exact hk'
    · cases hk'

end Slot

/-- **Every composite key is maintained as a whole.** After a primary key and indexes are put into
effect, a resolver that serves creating or updating refuses input that has some but not all
fields of an index, naming the first such index and its first missing field. All other input
gets the synthetic attributes of the primary key and of the indexes whose fields it has, with
the encoded keys as their values, and nothing else. -/
theorem transform_maintains {k : KeyDecl} {is : List IndexDecl} {s s' : Session}
    {place : String × String} {r : Resolver} {request : Request} {input : Entries MapKey Data}
    (htransform : transform [k] is s = .ok () s') (htype : ∀ i ∈ is, i.object = k.object)
    (hr : s.resolvers.get? place = some r) (hempty : r.slot s.options.slot = [])
    (hserved : ∃ mutation : KeyMutation,
      s.schema.placeOf k.object mutation.operation = some place)
    (hserves : ServesMutations s.schema k.object place)
    (hsound : Sound s.options request k is) (hinput : request.input? = some input)
    (separator : String) :
    ∃ r', s'.resolvers.get? place = some r' ∧
      match firstMissing? input is with
      | some (i, f) => ∃ mutation : KeyMutation,
          s.schema.placeOf k.object mutation.operation = some place ∧
          (evaluate request (r'.runSlot separator s.options.slot)).result =
            .error (.raised (refusalText i.name mutation f) .null)
      | none =>
          (evaluate request (r'.runSlot separator s.options.slot)).result = .ok .null ∧
          ∃ entries, List.Forall₂ (Composes s.options request.merged) (maintained k is input)
              entries ∧
            (evaluate request (r'.runSlot separator s.options.slot)).context.follow
              ["args", "input"] = .map (input.putAll entries) := by
  obtain ⟨r', hr', hbodies⟩ := slot_transformed htransform htype hr hempty hserves
  refine ⟨r', hr', ?_⟩
  have hrun := runAll_keeps separator hsound among_keepers hbodies
    (Kept.start hinput) (Machine.start_stages request)
  -- some mutation is served, and its check comes first
  obtain ⟨mutation, rest, hmutations⟩ :
      ∃ mutation rest, servedBy s.schema k.object place = mutation :: rest := by
    obtain ⟨mutation, hplace⟩ := hserved
    refine List.exists_cons_of_ne_nil (List.ne_nil_of_mem (a := mutation) ?_)
    refine List.mem_filter.mpr ⟨?_, by simpa using hplace⟩
    cases mutation <;> simp
  rw [hmutations, refusal?_keepers] at hrun
  cases hmissing : firstMissing? input is with
  | some p =>
    obtain ⟨i, f⟩ := p
    rw [hmissing] at hrun
    obtain ⟨m, hfail⟩ := hrun
    have hmutation : mutation ∈ servedBy s.schema k.object place := by simp [hmutations]
    exact ⟨mutation, by simpa using (List.mem_filter.mp hmutation).2,
      evaluate_runSlot_error hfail⟩
  | none =>
    rw [hmissing] at hrun
    obtain ⟨m, hok, sc, hm, hkept⟩ := hrun
    obtain ⟨hresult, hcontext⟩ := evaluate_runSlot hok hm
    refine ⟨hresult, _, composes_of_kept hkept fun k' hk' => ?_, ?_⟩
    · rw [List.nil_append]
      exact mem_keepers_keys (by simp) k' hk'
    · have hne : mutation :: rest ≠ [] := by simp
      rw [hcontext, ← putAll_keepers hne]
      -- what stands before the input among the arguments has not changed
      refine follow_input hkept.input ?_
      rw [hkept.before]
      exact request.scene_before (by rw [Request.scene_input, hinput]; rfl)

/-! ## Memos -/

/-- Memos have an identifier. -/
def memoKey (type : ObjectType) : KeyDecl where
  object := type
  partition := { name := "id", typeName := "ID" }
  sort := []
  sort_nodup := List.nodup_nil
  partition_notMem_sort := List.not_mem_nil (a := "id")

lemma status_notMem_yearMonth : "status" ∉ FieldDef.names
    [{ name := "year", typeName := "Int" }, { name := "month", typeName := "Int" }] := by
  decide

/-- Memos by status, in the order of their months. -/
def memoIndex (type : ObjectType) : IndexDecl where
  object := type
  partition := { name := "status", typeName := "String" }
  sort := [{ name := "year", typeName := "Int" }, { name := "month", typeName := "Int" }]
  sort_nodup := nodup_yearMonth
  partition_notMem_sort := status_notMem_yearMonth
  name := "byStatus"
  name_ne := by decide
  queryField := none
  primaryPartition := none

/-- A session with a new table for memos and a resolver for a mutation. -/
def memoSession (type : ObjectType) (field : String) : Session where
  schema := { types := [("Memo", type)] }
  options := {}
  tables := [("Memo", {
    logicalId := "MemoTable"
    partition := Table.defaultPartition
    attributes := [Table.defaultPartition] })]
  dataSources := ["MemoTable"]
  resolvers := [(("Mutation", field), { typeName := "Mutation", fieldName := field })]

/-- A request with this input. -/
def memoRequest (input : Entries String Data) : Request where
  arguments := [("input", .object input)]

/-- A memo of March. -/
def memo : Entries String Data :=
  [("id", .text "m1"), ("month", .int 3), ("year", .int 2024)]

/-- A memo of some March, without its year. -/
def yearlessMemo : Entries String Data :=
  [("id", .text "m1"), ("month", .int 3)]

/-- The transformation goes well. -/
def memoTransformed (type : ObjectType) (field : String) : Bool :=
  match transform [memoKey type] [memoIndex type] (memoSession type field) with
  | .ok _ _ => true
  | .error _ _ => false

lemma memoKey_plain (type : ObjectType) : (memoKey type).Plain {} :=
  ⟨by simp [memoKey, KeyDecl.fields]; decide, by decide, by decide⟩

lemma memoIndex_plain (type : ObjectType) : (memoIndex type).Plain {} :=
  ⟨by simp [memoIndex, KeyDecl.fields]; decide, by decide, by decide⟩

lemma memo_sound (type : ObjectType) {input : Entries String Data}
    (hid : (memoRequest input).merged.get? (.text "id") = some (.text "m1"))
    (hscalar : ScalarFields (memoRequest input).merged ["year", "month"]) :
    Sound {} (memoRequest input) (memoKey type) [memoIndex type] where
  primary := memoKey_plain type
  key := by
    refine ⟨fun _ => .text "m1", ⟨by simp, fun _ _ => ⟨_, rfl⟩⟩, fun f hf => ?_⟩
    obtain rfl := List.mem_singleton.mp hf
    exact hid
  indexes i hi := by
    obtain rfl := List.mem_singleton.mp hi
    exact memoIndex_plain type
  names i hi := by
    obtain rfl := List.mem_singleton.mp hi
    exact (by decide : '$' ∉ "byStatus".toList)
  scalars i hi := by
    obtain rfl := List.mem_singleton.mp hi
    exact hscalar
  separator := ⟨'#', by decide, by decide⟩

/-- Memos of a type with its own mutation for creating. -/
def memoType : ObjectType where
  name := "Memo"

lemma memo_scalars : ScalarFields (memoRequest memo).merged ["year", "month"] := by
  intro f hf d hd
  simp only [List.mem_cons, List.not_mem_nil, or_false] at hf
  rcases hf with rfl | rfl
  · exact ⟨.int 2024, (Option.some.inj hd).symm, by decide, _, by rw [← Option.some.inj hd]; rfl⟩
  · exact ⟨.int 3, (Option.some.inj hd).symm, by decide, _, by rw [← Option.some.inj hd]; rfl⟩

lemma yearlessMemo_scalars : ScalarFields (memoRequest yearlessMemo).merged ["year", "month"] := by
  intro f hf d hd
  simp only [List.mem_cons, List.not_mem_nil, or_false] at hf
  rcases hf with rfl | rfl
  · cases hd
  · exact ⟨.int 3, (Option.some.inj hd).symm, by decide, _, by rw [← Option.some.inj hd]; rfl⟩

/-- A memo with a year and a month gets the synthetic attribute of the index. One with a month but
without a year is refused for the year. -/
theorem transform_maintains_memo :
    ∃ s' r entries,
      transform [memoKey memoType] [memoIndex memoType] (memoSession memoType "createMemo") =
        .ok () s' ∧
      s'.resolvers.get? ("Mutation", "createMemo") = some r ∧
      List.Forall₂ (Composes {} (memoRequest memo).merged) [(memoIndex memoType).toKeyDecl]
        entries ∧
      (evaluate (memoRequest memo) (r.runSlot "#" "postAuth")).context.follow ["args", "input"] =
        .map ((Entries.texts memo).putAll entries) ∧
      (evaluate (memoRequest yearlessMemo) (r.runSlot "#" "postAuth")).result =
        .error (.raised (refusalText "byStatus" .create "year") .null) := by
  have hok : memoTransformed memoType "createMemo" = true := by decide +kernel
  unfold memoTransformed at hok
  cases hrun : transform [memoKey memoType] [memoIndex memoType]
      (memoSession memoType "createMemo") with
  | error e s' =>
    rw [hrun] at hok
    cases hok
  | ok u s' =>
    have hr : (memoSession memoType "createMemo").resolvers.get? ("Mutation", "createMemo") =
        some { typeName := "Mutation", fieldName := "createMemo" } := rfl
    have hserved : ∃ mutation : KeyMutation,
        (memoSession memoType "createMemo").schema.placeOf (memoKey memoType).object
          mutation.operation = some ("Mutation", "createMemo") := ⟨.create, by decide +kernel⟩
    have hserves : ServesMutations (memoSession memoType "createMemo").schema
        (memoKey memoType).object ("Mutation", "createMemo") := by
      intro op hop
      simp only [List.mem_cons, List.not_mem_nil, or_false] at hop
      rcases hop with rfl | rfl | rfl <;> decide +kernel
    obtain ⟨r, hr', -, entries, hentries, hfollow⟩ :=
      transform_maintains hrun (by simp [memoKey, memoIndex]) hr rfl hserved hserves
        (memo_sound memoType rfl memo_scalars) rfl "#"
    obtain ⟨r₁, hr₁, mutation, hplace, hrefused⟩ :=
      transform_maintains hrun (by simp [memoKey, memoIndex]) hr rfl hserved hserves
        (memo_sound memoType rfl yearlessMemo_scalars) rfl "#"
    obtain rfl := Option.some.inj (hr'.symm.trans hr₁)
    -- the mutation for updating is another one
    have hcreate : mutation = .create := by
      revert hplace
      cases mutation <;> decide +kernel
    rw [hcreate] at hrefused
    exact ⟨s', r, entries, rfl, hr', hentries, hfollow, hrefused⟩

/-- Memos of a type whose items are created and deleted by one mutation. -/
def sharedType : ObjectType where
  name := "Memo"
  mutations := [("create", some "saveMemo"), ("delete", some "saveMemo")]

/-- A memo that is not filed under a month. -/
def unfiled : Entries String Data :=
  [("id", .text "m1")]

lemma unfiled_scalars : ScalarFields (memoRequest unfiled).merged ["year", "month"] := by
  intro f hf d hd
  simp only [List.mem_cons, List.not_mem_nil, or_false] at hf
  rcases hf with rfl | rfl <;> cases hd

/-- The input as the templates of the shared mutation leave it. -/
def sharedInput : Option Data :=
  match transform [memoKey sharedType] [memoIndex sharedType]
      (memoSession sharedType "saveMemo") with
  | .ok _ s' => (s'.resolvers.get? ("Mutation", "saveMemo")).map fun r =>
      (evaluate (memoRequest unfiled) (r.runSlot "#" "postAuth")).context.follow ["args", "input"]
  | .error _ _ => none

/-- **A shared resolver writes an index nobody asked for.** If one mutation creates and deletes
items, then input without any field of the index gets its synthetic attribute all the same,
with the text of the references in it. -/
theorem maintained_unless_shared :
    ∃ s' r,
      transform [memoKey sharedType] [memoIndex sharedType] (memoSession sharedType "saveMemo") =
        .ok () s' ∧
      s'.resolvers.get? ("Mutation", "saveMemo") = some r ∧
      (memoSession sharedType "saveMemo").schema.placeOf sharedType .create =
        some ("Mutation", "saveMemo") ∧
      Sound {} (memoRequest unfiled) (memoKey sharedType) [memoIndex sharedType] ∧
      firstMissing? (Entries.texts unfiled) [memoIndex sharedType] = none ∧
      maintained (memoKey sharedType) [memoIndex sharedType] (Entries.texts unfiled) = [] ∧
      (evaluate (memoRequest unfiled) (r.runSlot "#" "postAuth")).context.follow
        ["args", "input"] ≠ .map (Entries.texts unfiled) := by
  have hwrite : sharedInput.map (fun d => (d.member "year#month").plain) =
      some "$\x7bmergedValues.year\x7d#$\x7bmergedValues.month\x7d" := by decide +kernel
  unfold sharedInput at hwrite
  cases hrun : transform [memoKey sharedType] [memoIndex sharedType]
      (memoSession sharedType "saveMemo") with
  | error e s' =>
    rw [hrun] at hwrite
    cases hwrite
  | ok u s' =>
    rw [hrun] at hwrite
    cases hr : s'.resolvers.get? ("Mutation", "saveMemo") with
    | none =>
      simp only [hr] at hwrite
      cases hwrite
    | some r =>
      refine ⟨s', r, rfl, hr, by decide +kernel, memo_sound sharedType rfl unfiled_scalars,
        by decide, by decide, fun hinput => ?_⟩
      simp only [hr, Option.map_some, hinput] at hwrite
      exact absurd hwrite (by decide)

end Template

end TableKeys
