/-
# The upkeep of an index

On create and update the input is laid over the default values, checked for the fields of the
index, and if it has them all, the value of the composite key is put into it. Input with some of
the fields only is refused (`exec_upkeep_refused`), input without any is left alone
(`exec_upkeep_idle`).

A field counts as given if the input has it as a key, but a component is missing from a key if
it is null. So what is written is the encoded key just if no component is null
(`written_eq_encoded_iff`); the reference to a null component is written as it stands.
-/
import TableKeys.Proofs.Injected
import TableKeys.Proofs.Validation

namespace TableKeys

/-- The operation that a mutation is. -/
def Snippet.KeyMutation.operation : Snippet.KeyMutation → Operation
  | create => .create
  | update => .update

namespace Template

open Snippet Session

/-- The snippets that keep an index on a mutation. -/
def upkeepSnippets (i : IndexDecl) (o : Options) (mutation : KeyMutation) : List (Option Stmt) :=
  some mergeInputsAndDefaults :: indexSnippets i o mutation.operation

/-- The statements that keep an index with two or more sort fields on a mutation. -/
def upkeep (i : IndexDecl) (o : Options) (mutation : KeyMutation) : List Stmt :=
  [mergeInputsAndDefaults, indexValidation i mutation, compositeUpkeep i.toKeyDecl true o]

lemma upkeepSnippets_eq {i : IndexDecl} (hcomposite : i.isComposite = true) (o : Options)
    (mutation : KeyMutation) :
    (upkeepSnippets i o mutation).filterMap id = upkeep i o mutation := by
  have hindex : indexSnippets i o mutation.operation =
      [validateIndexArgument i mutation, ensureCompositeKey i.toKeyDecl true o] := by
    cases mutation <;> rfl
  rw [upkeepSnippets, hindex, validateIndexArgument_eq hcomposite,
    ensureCompositeKey_eq hcomposite]
  rfl

section Upkeep

variable {separator : String} {m : Machine} {sc : Scene} {i : IndexDecl} {o : Options}
  {mutation : KeyMutation} {inp : Entries MapKey Data}

lemma notMem_sortFields (hi : i.Plain o) : ∀ f ∈ i.sortFields, '$' ∉ f.toList :=
  fun f hf => notMem_of_isSchemaName (hi.sortFields f hf) (by decide)

/-- **Input with some fields of the index only is refused.** -/
theorem exec_upkeep_refused (separator : String) (mutation : KeyMutation) {f : String}
    (h : m.Stages sc) (hinp : sc.maps .input = some inp) (hi : i.Plain o)
    (hmissing : missingField? inp i.sortFields = some f) :
    ∃ e m', execAll separator (upkeep i o mutation) m = .error e m' ∧
      ('$' ∉ i.name.toList → e = .raised (refusalText i.name mutation f) .null) := by
  obtain ⟨m₁, hmerge, hm₁⟩ := exec_mergeInputsAndDefaults separator h (by simp [hinp])
  have hinp₁ : sc.merge.maps .input = some inp := by rw [sc.merge_input, hinp]
  have hcheck := exec_validateIndexArgument separator mutation hm₁ hinp₁ (notMem_sortFields hi)
  rw [hmissing] at hcheck
  obtain ⟨e, m₂, hfail, he⟩ := hcheck
  exact ⟨e, m₂, by rw [upkeep, execAll_cons_ok hmerge, execAll_cons_error hfail], he⟩

/-- If no field is missing, the check passes, and the template knows whether there is one. -/
lemma exec_upkeep_checked (separator : String) (mutation : KeyMutation) (h : m.Stages sc)
    (hinp : sc.maps .input = some inp) (hi : i.Plain o)
    (hmissing : missingField? inp i.sortFields = none) :
    ∃ m', execAll separator (upkeep i o mutation) m =
        (compositeUpkeep i.toKeyDecl true o).exec separator m' ∧
      m'.Merged sc.merge ∧
      m'.bindings.get? hasSeenSomeKeyArg = some (.bool (inp.hasSome i.sortFields)) := by
  obtain ⟨m₁, hmerge, hm₁⟩ := exec_mergeInputsAndDefaults separator h (by simp [hinp])
  have hinp₁ : sc.merge.maps .input = some inp := by rw [sc.merge_input, hinp]
  have hcheck := exec_validateIndexArgument separator mutation hm₁ hinp₁ (notMem_sortFields hi)
  rw [hmissing] at hcheck
  obtain ⟨m₂, hpass, hm₂, hseen⟩ := hcheck
  exact ⟨m₂, by rw [upkeep, execAll_cons_ok hmerge, execAll_cons_ok hpass, execAll_singleton],
    hm₂, hseen⟩

/-- **Input without fields of the index is left alone.** -/
theorem exec_upkeep_idle (h : m.Stages sc) (hinp : sc.maps .input = some inp) (hi : i.Plain o)
    (hnone : inp.hasSome i.sortFields = false) :
    (execAll separator (upkeep i o mutation)).Reaches m fun m' =>
      m'.Stages (sc.merge.noted i.toKeyDecl o) := by
  have hmissing : missingField? inp i.sortFields = none := by rw [missingField?, hnone]; rfl
  obtain ⟨m₁, hrun, hm₁, hseen⟩ := exec_upkeep_checked separator mutation h hinp hi hmissing
  rw [hnone] at hseen
  obtain ⟨m₂, hskip, hm₂, -⟩ := exec_ensureCompositeKey_skip separator hm₁ hi hseen
  exact ⟨m₂, hrun.trans hskip, hm₂.stages⟩

/-- With all fields of the index in the input the value of the key is put into it, unless there
is no text for it. -/
theorem exec_upkeep_complete (separator : String) (mutation : KeyMutation) (h : m.Stages sc)
    (hinp : sc.maps .input = some inp) (hi : i.Plain o) (hcomposite : i.isComposite = true)
    (hsome : inp.hasSome i.sortFields = true)
    (hmissing : missingField? inp i.sortFields = none) :
    match shownComposite o mergedValues sc.overlay i.sortFields with
    | .ok t => (execAll separator (upkeep i o mutation)).Reaches m fun m' => m'.Stages
        ((sc.merge.noted i.toKeyDecl o).putInput (compositeName o i.sortFields) (.text t))
    | .error f => ∃ m', execAll separator (upkeep i o mutation) m = .error (.fault f) m' := by
  obtain ⟨m₁, hrun, hm₁, hseen⟩ := exec_upkeep_checked separator mutation h hinp hi hmissing
  rw [hsome] at hseen
  have hinp₁ : sc.merge.maps .input = some inp := by rw [sc.merge_input, hinp]
  have hwriting : m₁.Writing true := fun _ => hseen
  have hwrite := exec_ensureCompositeKey separator hm₁ hi hcomposite hwriting sc.merge_target hinp₁
  cases hshown : shownComposite o mergedValues sc.overlay i.sortFields with
  | error f =>
    rw [hshown] at hwrite
    obtain ⟨m₂, hfail⟩ := hwrite
    exact ⟨m₂, hrun.trans hfail⟩
  | ok t =>
    rw [hshown] at hwrite
    obtain ⟨m₂, hput, hm₂, -⟩ := hwrite
    exact ⟨m₂, hrun.trans hput, hm₂.stages⟩

end Upkeep

/-! ## What is stored -/

section Stored

variable {r : Resolver} {slot separator : String} {request : Request} {i : IndexDecl} {o : Options}
  {mutation : KeyMutation} {input : Entries MapKey Data}

/-- The template for an index, on input with all its fields. -/
lemma evaluate_upkeep_complete (r : Resolver) (slot separator : String) (mutation : KeyMutation)
    {t : String} (hi : i.Plain o) (hcomposite : i.isComposite = true)
    (hinput : request.input? = some input) (hsome : input.hasSome i.sortFields = true)
    (hmissing : missingField? input i.sortFields = none)
    (ht : shownComposite o mergedValues request.merged i.sortFields = .ok t) :
    let outcome := evaluate request ((r.injected slot (upkeepSnippets i o mutation)).run separator)
    outcome.result = .ok .null ∧ outcome.context.follow ["args", "input"] =
      .map (input.put (.text (compositeName o i.sortFields)) (.text t)) := by
  have hrun : ∀ m : Machine, m.Stages request.scene →
      (execAll separator ((upkeepSnippets i o mutation).filterMap id)).Reaches m fun m' =>
        m'.Stages ((request.scene.merge.noted i.toKeyDecl o).putInput
          (compositeName o i.sortFields) (.text t)) := by
    intro m hm
    have hcomplete := exec_upkeep_complete separator mutation hm hinput hi hcomposite hsome hmissing
    rw [Scene.overlay_scene, ht] at hcomplete
    rw [upkeepSnippets_eq hcomposite]
    exact hcomplete
  obtain ⟨hresult, hcontext⟩ := evaluate_injected r slot (upkeepSnippets i o mutation) hrun
  refine ⟨hresult, ?_⟩
  rw [hcontext]
  refine follow_input (Scene.putInput_input ?_ _ _) ?_
  · rw [Scene.noted_maps _ _ _ (by simp), Scene.merge_input]
    exact hinput
  · exact request.scene_before (by rw [Request.scene_input, hinput]; rfl)

lemma has_of_missingField?_none (hsome : input.hasSome i.sortFields = true)
    (hmissing : missingField? input i.sortFields = none) :
    ∀ f ∈ i.sortFields, input.has (.text f) = true := by
  rw [missingField?, if_pos hsome, List.find?_eq_none] at hmissing
  intro f hf
  simpa using hmissing f hf

/-- **What is stored for an index is the encoded key just if no component is null.** If the
template for an index ends well and the input has a field of the index, it has them all. The
text that is stored has the components in order; one that is null leaves the reference to it. -/
theorem stored_eq_encoded_iff {v : Data} (hi : i.Plain o) (hcomposite : i.isComposite = true)
    (hinput : request.input? = some input) (hsome : input.hasSome i.sortFields = true)
    (hok : (evaluate request
      ((r.injected slot (upkeepSnippets i o mutation)).run separator)).result = .ok v) :
    (∀ f ∈ i.sortFields, input.has (.text f) = true) ∧
    ∃ t, (evaluate request
        ((r.injected slot (upkeepSnippets i o mutation)).run separator)).context.follow
          ["args", "input"] = .map (input.put (.text (compositeName o i.sortFields)) (.text t)) ∧
      shownComposite o mergedValues request.merged i.sortFields = .ok t ∧
      (∀ f ∈ i.sortFields, request.merged.field f = .null →
        (braced (mergedValues ++ "." ++ f)).toList <:+: t.toList) ∧
      ((∀ f ∈ i.sortFields, ∃ a, request.merged.field f = .scalar a) →
        (encodeComposite o (i.sortFields.map request.merged.field) = .ok t ↔
          ∀ f ∈ i.sortFields, request.merged.field f ≠ .null)) := by
  cases hmissing : missingField? input i.sortFields with
  | some f =>
    -- the check refuses the input, so the template does not end well
    refine absurd hok (evaluate_injected_ne_ok r slot _ (fun m hm => ?_) v)
    obtain ⟨e, m', hfail, -⟩ := exec_upkeep_refused separator mutation hm hinput hi hmissing
    exact ⟨e, m', by rw [upkeepSnippets_eq hcomposite, hfail]⟩
  | none =>
    cases ht : shownComposite o mergedValues request.merged i.sortFields with
    | error fault =>
      refine absurd hok (evaluate_injected_ne_ok r slot _ (fun m hm => ?_) v)
      have hfail := exec_upkeep_complete separator mutation hm hinput hi hcomposite hsome hmissing
      rw [Scene.overlay_scene, ht] at hfail
      obtain ⟨m', hfail⟩ := hfail
      exact ⟨_, m', by rw [upkeepSnippets_eq hcomposite, hfail]⟩
    | ok t =>
      obtain ⟨-, hfollow⟩ := evaluate_upkeep_complete r slot separator mutation hi hcomposite hinput
        hsome hmissing ht
      refine ⟨has_of_missingField?_none hsome hmissing, t, hfollow, rfl,
        fun f hf hnull => isInfix_of_null ht hf hnull, fun hscalar => ⟨fun hencode f hf => ?_,
          fun hne => ?_⟩⟩
      · exact ne_null_of_encodeComposite hencode _ (List.mem_map_of_mem hf)
      · have hfields : ∀ f ∈ i.sortFields, ∃ a, request.merged.field f = .scalar a ∧ a ≠ .null := by
          intro f hf
          obtain ⟨a, ha⟩ := hscalar f hf
          exact ⟨a, ha, fun hnull => hne f hf (by rw [ha, hnull])⟩
        rw [encodeComposite_eq_shown o mergedValues hfields, ht]
        rfl

end Stored

lemma nodup_yearMonth : (FieldDef.names
    [{ name := "year", typeName := "Int" }, { name := "month", typeName := "Int" }]).Nodup := by
  decide

/-- Entries of a diary by mood, in the order of their months. -/
def moodIndex : IndexDecl where
  object := { name := "Entry" }
  partition := { name := "mood", typeName := "String" }
  sort := [{ name := "year", typeName := "Int" }, { name := "month", typeName := "Int" }]
  sort_nodup := nodup_yearMonth
  partition_notMem_sort := by decide
  name := "byMood"
  name_ne := by decide
  queryField := none
  primaryPartition := none

/-- The request to create an entry whose year is null. -/
def undatedEntry : Request where
  arguments := [("input", .object [("month", .int 3), ("year", .null)])]

/-- An entry whose year is null is stored with the reference to the year in its key. -/
theorem stored_eq_encoded_iff_undated :
    ∃ t, (evaluate undatedEntry
        ((({ typeName := "Mutation", fieldName := "createEntry" } : Resolver).injected "postAuth"
          (upkeepSnippets moodIndex {} .create)).run "#")).context.follow ["args", "input"] =
        .map (Entries.put [(.text "month", .int 3), (.text "year", .null)] (.text "year#month")
          (.text t)) ∧
      "$\x7bmergedValues.year\x7d".toList <:+: t.toList ∧
      encodeComposite {} [.null, .int 3] ≠ .ok t := by
  have hplain : moodIndex.Plain {} := ⟨by decide, by decide, by decide⟩
  have hinput : undatedEntry.input? = some [(.text "month", .int 3), (.text "year", .null)] := rfl
  have hsome : Entries.hasSome [(.text "month", .int 3), (.text "year", .null)]
    moodIndex.sortFields = true := by decide
  obtain ⟨hok, -⟩ := evaluate_upkeep_complete
    { typeName := "Mutation", fieldName := "createEntry" } "postAuth" "#" .create hplain rfl hinput
    hsome rfl (t := "$\x7bmergedValues.year\x7d#3") rfl
  obtain ⟨-, t, hfollow, -, hnull, hiff⟩ := stored_eq_encoded_iff hplain rfl hinput hsome hok
  refine ⟨t, hfollow, hnull "year" (by decide) rfl, fun hencode => ?_⟩
  have hscalar : ∀ f ∈ moodIndex.sortFields, ∃ a, undatedEntry.merged.field f = .scalar a := by
    intro f hf
    simp only [KeyDecl.sortFields, moodIndex, FieldDef.names, List.map_cons, List.map_nil,
      List.mem_cons, List.not_mem_nil, or_false] at hf
    rcases hf with rfl | rfl <;> exact ⟨_, rfl⟩
  exact (hiff hscalar).mp hencode "year" (by decide) rfl

end Template

end TableKeys
