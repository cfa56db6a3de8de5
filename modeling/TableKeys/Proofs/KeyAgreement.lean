/-
# Reading and writing agree on keys

An item is found again only if the template that reads it makes the same key as the ones that
wrote it. Reading takes the fields of the key from the arguments, writing from the input laid
over the default values; with the same scalars in both, the keys are the same
(`modelObjectKey_agrees`). The synthetic attribute that a write puts into the input is the text
in the key.
-/
import TableKeys.Proofs.Injected
import TableKeys.Proofs.ItemKey

namespace TableKeys

/-- A map has these scalars under the names of the fields of a key. -/
def Carries (k : KeyDecl) (value : String → Scalar) (es : Entries MapKey Data) : Prop :=
  ∀ f ∈ k.fields, es.get? (.text f.name) = some (.scalar (value f.name))

/-- The scalars can stand in a key: none is null, and each has a stored form. -/
structure Storable (k : KeyDecl) (value : String → Scalar) : Prop where
  ne_null : ∀ f ∈ k.fields, value f.name ≠ .null
  stored : ∀ f ∈ k.fields, ∃ a, (Data.scalar (value f.name)).stored = .ok a

namespace Carries

variable {k : KeyDecl} {value : String → Scalar} {es : Entries MapKey Data}

lemma partition (h : Carries k value es) :
    es.field k.partition.name = .scalar (value k.partition.name) := by
  rw [Entries.field, h k.partition (by simp [KeyDecl.fields])]
  rfl

lemma sortField (h : Carries k value es) {field : String} (hfield : field ∈ k.sortFields) :
    es.field field = .scalar (value field) := by
  obtain ⟨f, hf, rfl⟩ := List.mem_map.mp hfield
  rw [Entries.field, h f (by simp [KeyDecl.fields, hf])]
  rfl

end Carries

namespace Storable

variable {k : KeyDecl} {value : String → Scalar}

lemma sortField_ne_null (h : Storable k value) {field : String} (hfield : field ∈ k.sortFields) :
    value field ≠ .null := by
  obtain ⟨f, hf, rfl⟩ := List.mem_map.mp hfield
  exact h.ne_null f (by simp [KeyDecl.fields, hf])

lemma sortField_stored (h : Storable k value) {field : String} (hfield : field ∈ k.sortFields) :
    ∃ a, (Data.scalar (value field)).stored = .ok a := by
  obtain ⟨f, hf, rfl⟩ := List.mem_map.mp hfield
  exact h.stored f (by simp [KeyDecl.fields, hf])

lemma sortField_isWritable (h : Storable k value) {field : String}
    (hfield : field ∈ k.sortFields) : (value field).isWritable = true := by
  obtain ⟨a, ha⟩ := h.sortField_stored hfield
  exact Data.isWritable_of_stored ha

end Storable

namespace Template

open Snippet Session

/-! ## The key of given scalars -/

section Keys

variable {k : KeyDecl} {value : String → Scalar}

/-- The text of a composite key depends on the scalars only. -/
lemma shownComposite_of_carries (o : Options) (hvalue : Storable k value) :
    ∃ t, encodeComposite o (k.sortFields.map fun f => .scalar (value f)) = .ok t ∧
      ∀ path es, Carries k value es → shownComposite o path es k.sortFields = .ok t := by
  obtain ⟨ts, hts⟩ : ∃ ts,
      (k.sortFields.map fun f => Data.scalar (value f)).mapM Data.interpolated = .ok ts := by
    refine exists_mapM_ok fun d hd => ?_
    obtain ⟨f, hf, rfl⟩ := List.mem_map.mp hd
    exact interpolated_scalar (hvalue.sortField_isWritable hf)
  have hencode : encodeComposite o (k.sortFields.map fun f => .scalar (value f)) =
      .ok (o.keySeparator.intercalate ts) := by
    rw [encodeComposite_scalars o fun d hd => ?_, hts]
    · rfl
    · obtain ⟨f, hf, rfl⟩ := List.mem_map.mp hd
      exact ⟨value f, rfl, hvalue.sortField_ne_null hf⟩
  refine ⟨_, hencode, fun path es hes => ?_⟩
  obtain ⟨u, hu, hsame⟩ := shownComposite_ok o path fun f hf =>
    ⟨value f, hes.sortField hf, hvalue.sortField_ne_null hf, hvalue.sortField_isWritable hf⟩
  rw [List.map_congr_left fun f hf => hes.sortField hf, hencode] at hsame
  rw [hu, Except.ok.inj hsame]

lemma storedSort_of_carries (o : Options) (hvalue : Storable k value) :
    ∃ sort, (∀ path es, Carries k value es → storedSort k o path es = .ok sort) ∧
      (k.isComposite = true → ∃ t,
        encodeComposite o (k.sortFields.map fun f => .scalar (value f)) = .ok t ∧
        sort = [(compositeName o k.sortFields, .text t)]) := by
  obtain ⟨t, hencode, hshown⟩ := shownComposite_of_carries o hvalue
  have hlength : k.isComposite = true → 1 < k.sortFields.length := by
    simp [KeyDecl.isComposite, KeyDecl.sortFields]
  unfold storedSort
  rcases hfields : k.sortFields with _ | ⟨field, _ | ⟨g, fields⟩⟩
  · rw [hfields] at hlength
    exact ⟨[], fun _ _ _ => rfl, fun hc => absurd (hlength hc) (by simp)⟩
  · have hmem : field ∈ k.sortFields := by simp [hfields]
    obtain ⟨a, ha⟩ := hvalue.sortField_stored hmem
    rw [hfields] at hlength
    refine ⟨[(field, a)], fun path es hes => ?_, fun hc => absurd (hlength hc) (by simp)⟩
    simp only [hes.sortField hmem, ha]
    rfl
  · rw [hfields] at hencode hshown
    refine ⟨_, fun path es hes => ?_, fun _ => ⟨t, hencode, rfl⟩⟩
    simp only [hshown path es hes]
    rfl

/-- The key depends on the scalars only; if it is composite, its synthetic attribute has the
encoded key as its text. -/
lemma itemKey_of_carries (o : Options) (hvalue : Storable k value) :
    ∃ key, (∀ path es, Carries k value es → itemKey k o path es = .ok key) ∧
      (k.isComposite = true → ∃ t,
        encodeComposite o (k.sortFields.map fun f => .scalar (value f)) = .ok t ∧
        key.get? (compositeName o k.sortFields) = some (.text t)) := by
  obtain ⟨a, ha⟩ := hvalue.stored k.partition (by simp [KeyDecl.fields])
  obtain ⟨sort, hsort, hcomposite⟩ := storedSort_of_carries o hvalue
  refine ⟨Entries.putAll [(k.partition.name, a)] sort, fun path es hes => ?_, fun hc => ?_⟩
  · rw [itemKey, hes.partition, ha, hsort path es hes]
    rfl
  · obtain ⟨t, hencode, rfl⟩ := hcomposite hc
    exact ⟨t, hencode, Entries.get?_put_self _ _ _⟩

end Keys

/-! ## The templates -/

/-- The request writes an item: its input, laid over the default values, has the scalars. -/
structure Writes (request : Request) (k : KeyDecl) (value : String → Scalar)
    (input : Entries MapKey Data) : Prop where
  given : request.input? = some input
  carries : Carries k value request.merged

/-- The template ends well on the request and leaves the data in the context. -/
def Leaves (request : Request) (separator : String) (t : MappingTemplate) (names : List String)
    (d : Data) : Prop :=
  (evaluate request (t.run separator)).result = .ok .null ∧
    (evaluate request (t.run separator)).context.follow names = d

section Templates

variable {separator slot : String} {r : Resolver} {request : Request} {k : KeyDecl} {o : Options}
  {value : String → Scalar} {input : Entries MapKey Data} {key : Entries String AttributeValue}

lemma leaves_get (hk : k.Legible o) (hcarries : Carries k value request.arguments.texts)
    (hkey : ∀ path es, Carries k value es → itemKey k o path es = .ok key) :
    Leaves request separator (r.injected slot (primarySnippets k o .get))
      ["stash", "metadata", "modelObjectKey"] (.object (key.mapValues AttributeValue.data)) := by
  have hrun : ∀ m : Machine, m.Stages request.scene →
      (execAll separator [setPrimaryKey k false o]).Reaches m fun m' =>
        m'.Stages (request.scene.keyed (.object (key.mapValues AttributeValue.data))) := by
    rintro m ⟨l, hl⟩
    rw [Run.Reaches, execAll_singleton]
    refine (exec_setPrimaryKey hl hk (leadsTo_arguments hl) (hkey _ _ ?_)).mono
      fun m' hm' => ⟨l, hm'.1⟩
    rw [Request.scene_arguments]
    exact hcarries
  obtain ⟨hresult, hcontext⟩ := evaluate_injected r slot (primarySnippets k o .get) hrun
  refine ⟨hresult, ?_⟩
  rw [hcontext, follow_modelObjectKey]
  rfl

/-- A write makes its key out of the merged values before it does anything else. -/
lemma exec_writeKey {m : Machine} {sc : Scene} {rest : List Stmt} {Q : Machine → Prop}
    (h : m.Stages sc) (hinput : (sc.maps .input).isSome) (hk : k.Legible o)
    (hkey : itemKey k o mergedValues sc.overlay = .ok key)
    (hrest : ∀ m' : Machine,
      m'.Merged (sc.merge.keyed (.object (key.mapValues AttributeValue.data))) →
        (execAll separator rest).Reaches m' Q) :
    (execAll separator (mergeInputsAndDefaults :: setPrimaryKey k true o :: rest)).Reaches m Q := by
  refine execAll_cons (exec_mergeInputsAndDefaults separator h hinput) fun m₁ hm₁ => ?_
  exact execAll_cons (exec_setPrimaryKey_merged hm₁ hk sc.merge_target hkey) hrest

/-- The scene that a write leaves. -/
def Scene.written (sc : Scene) (k : KeyDecl) (o : Options) (key : Data) (t : String) : Scene :=
  if k.isComposite then
    ((sc.merge.keyed key).noted k o).putInput (compositeName o k.sortFields) (.text t)
  else sc.merge.keyed key

lemma exec_delete (separator : String) {m : Machine} {sc : Scene} (h : m.Stages sc)
    (hinput : (sc.maps .input).isSome) (hk : k.Legible o)
    (hkey : itemKey k o mergedValues sc.overlay = .ok key) :
    (execAll separator [mergeInputsAndDefaults, setPrimaryKey k true o]).Reaches m fun m' =>
      m'.Stages (sc.merge.keyed (.object (key.mapValues AttributeValue.data))) :=
  exec_writeKey h hinput hk hkey fun m' hm' => ⟨m', execAll_nil, hm'.stages⟩

lemma exec_write (separator : String) {m : Machine} {sc : Scene} {t : String} (h : m.Stages sc)
    (hinput : (sc.maps .input).isSome) (hk : k.Plain o)
    (hkey : itemKey k o mergedValues sc.overlay = .ok key)
    (ht : k.isComposite = true → shownComposite o mergedValues sc.overlay k.sortFields = .ok t) :
    (execAll separator ([some mergeInputsAndDefaults, some (setPrimaryKey k true o),
      ensureCompositeKey k false o].filterMap id)).Reaches m fun m' =>
        m'.Stages (sc.written k o (.object (key.mapValues AttributeValue.data)) t) := by
  obtain ⟨inp, hinp⟩ := Option.isSome_iff_exists.mp hinput
  unfold Scene.written
  cases hcomposite : k.isComposite with
  | false =>
    have hnone : ensureCompositeKey k false o = none := by simp [ensureCompositeKey, hcomposite]
    rw [hnone]
    exact exec_delete separator h hinput hk.legible hkey
  | true =>
    rw [ensureCompositeKey_eq hcomposite]
    refine exec_writeKey h hinput hk.legible hkey fun m₁ hm₁ => ?_
    have hwriting : m₁.Writing false := by simp [Machine.Writing]
    have hinp' : (sc.merge.keyed (.object (key.mapValues AttributeValue.data))).maps .input =
        some inp := by rw [Scene.keyed_maps, sc.merge_input, hinp]
    have hupkeep :=
      exec_ensureCompositeKey separator hm₁ hk hcomposite hwriting sc.merge_target hinp'
    rw [ht hcomposite] at hupkeep
    show (execAll separator [compositeUpkeep k false o]).Reaches m₁ _
    rw [Run.Reaches, execAll_singleton]
    exact hupkeep.mono fun m' hm' => hm'.1.stages

namespace Scene

variable {sc : Scene} {d : Data} {t : String}

lemma written_key : (sc.written k o d t).key = d := by
  unfold written
  split <;> rfl

lemma written_before : (sc.written k o d t).before = sc.before := by
  unfold written
  split <;> rfl

lemma written_of_single (hcomposite : k.isComposite = false) :
    sc.written k o d t = sc.merge.keyed d :=
  if_neg (by simp [hcomposite])

lemma written_defaults : (sc.written k o d t).maps .defaults = sc.merge.maps .defaults := by
  unfold written
  split
  · rw [putInput, setMap_of_ne _ _ (by simp), noted_maps _ _ _ (by simp), keyed_maps]
  · rfl

lemma written_input (hcomposite : k.isComposite = true) (hinput : sc.maps .input = some input) :
    (sc.written k o d t).maps .input =
      some (input.put (.text (compositeName o k.sortFields)) (.text t)) := by
  rw [written, if_pos hcomposite, putInput, setMap_self, noted_maps _ _ _ (by simp), keyed_maps,
    merge_input, hinput]
  rfl

end Scene

lemma evaluate_write (r : Resolver) (slot separator : String) {op : Operation}
    (hop : op ∈ [.create, .update]) {t : String} (hk : k.Plain o)
    (hwrites : Writes request k value input)
    (hkey : itemKey k o mergedValues request.scene.overlay = .ok key)
    (ht : k.isComposite = true →
      shownComposite o mergedValues request.scene.overlay k.sortFields = .ok t) :
    (evaluate request ((r.injected slot (primarySnippets k o op)).run separator)).result =
        .ok .null ∧
      (evaluate request ((r.injected slot (primarySnippets k o op)).run separator)).context =
        (request.scene.written k o (.object (key.mapValues AttributeValue.data)) t).data := by
  have hinput : (request.scene.maps .input).isSome := by
    rw [Request.scene_input, hwrites.given]
    rfl
  have hsnippets : primarySnippets k o op = [some mergeInputsAndDefaults,
      some (setPrimaryKey k true o), ensureCompositeKey k false o] := by
    rcases List.mem_pair.mp hop with rfl | rfl <;> rfl
  rw [hsnippets]
  exact evaluate_injected r slot _ fun m hm => exec_write _ hm hinput hk hkey ht

lemma leaves_delete (hk : k.Legible o) (hwrites : Writes request k value input)
    (hkey : ∀ path es, Carries k value es → itemKey k o path es = .ok key) :
    Leaves request separator (r.injected slot (primarySnippets k o .delete))
      ["stash", "metadata", "modelObjectKey"] (.object (key.mapValues AttributeValue.data)) := by
  have hinput : (request.scene.maps .input).isSome := by
    rw [Request.scene_input, hwrites.given]
    rfl
  have hitem := hkey mergedValues _ hwrites.carries
  obtain ⟨hresult, hcontext⟩ := evaluate_injected r slot (primarySnippets k o .delete)
    fun m hm => exec_delete separator hm hinput hk hitem
  refine ⟨hresult, ?_⟩
  rw [hcontext, follow_modelObjectKey]
  rfl

/-- Every write leaves the key. -/
lemma leaves_write {op : Operation} (hop : op ∈ [.create, .update, .delete]) {t : String}
    (hk : k.Plain o) (hwrites : Writes request k value input)
    (hkey : ∀ path es, Carries k value es → itemKey k o path es = .ok key)
    (ht : ∀ path es, Carries k value es → shownComposite o path es k.sortFields = .ok t) :
    Leaves request separator (r.injected slot (primarySnippets k o op))
      ["stash", "metadata", "modelObjectKey"] (.object (key.mapValues AttributeValue.data)) := by
  have hitem := hkey mergedValues _ hwrites.carries
  have hshown := ht mergedValues _ hwrites.carries
  have hmutation : op ∈ [.create, .update] → Leaves request separator
      (r.injected slot (primarySnippets k o op)) ["stash", "metadata", "modelObjectKey"]
      (.object (key.mapValues AttributeValue.data)) := by
    intro hop
    obtain ⟨hresult, hcontext⟩ :=
      evaluate_write r slot separator hop hk hwrites hitem fun _ => hshown
    refine ⟨hresult, ?_⟩
    rw [hcontext, follow_modelObjectKey, Scene.written_key]
  simp only [List.mem_cons, List.not_mem_nil, or_false] at hop
  rcases hop with rfl | rfl | rfl
  · exact hmutation (by simp)
  · exact hmutation (by simp)
  · exact leaves_delete hk.legible hwrites hkey

/-- Creating and updating leave the text of a composite key in the input. -/
lemma leaves_composite {op : Operation} (hop : op ∈ [.create, .update]) {t : String}
    (hk : k.Plain o) (hcomposite : k.isComposite = true) (hwrites : Writes request k value input)
    (hkey : ∀ path es, Carries k value es → itemKey k o path es = .ok key)
    (ht : ∀ path es, Carries k value es → shownComposite o path es k.sortFields = .ok t) :
    Leaves request separator (r.injected slot (primarySnippets k o op)) ["args", "input"]
      (.map (input.put (.text (compositeName o k.sortFields)) (.text t))) := by
  have hitem := hkey mergedValues _ hwrites.carries
  have hshown := ht mergedValues _ hwrites.carries
  obtain ⟨hresult, hcontext⟩ := evaluate_write r slot separator hop hk hwrites hitem fun _ => hshown
  refine ⟨hresult, ?_⟩
  rw [hcontext]
  refine follow_input (Scene.written_input hcomposite hwrites.given) ?_
  rw [Scene.written_before]
  exact request.scene_before (by rw [Request.scene_input, hwrites.given]; rfl)

end Templates

/-! ## Agreement -/

/-- **Reading and writing agree.** For given scalars there is one key that the templates for
getting, creating, updating and deleting an item leave in the metadata, whatever else stands in
the arguments and the default values. If it is composite, the templates for creating and
updating put the very text of its synthetic attribute into the input. -/
theorem modelObjectKey_agrees {k : KeyDecl} {o : Options} {value : String → Scalar}
    (hk : k.Plain o) (hvalue : Storable k value) :
    ∃ key : Data,
      (∀ (r : Resolver) slot separator request, Carries k value request.arguments.texts →
        Leaves request separator (r.injected slot (primarySnippets k o .get))
          ["stash", "metadata", "modelObjectKey"] key) ∧
      (∀ op ∈ [Operation.create, .update, .delete], ∀ (r : Resolver) slot separator request input,
        Writes request k value input →
          Leaves request separator (r.injected slot (primarySnippets k o op))
            ["stash", "metadata", "modelObjectKey"] key) ∧
      (k.isComposite = true → ∃ t,
        encodeComposite o (k.sortFields.map fun f => .scalar (value f)) = .ok t ∧
        key.member (compositeName o k.sortFields) = (AttributeValue.text t).data ∧
        ∀ op ∈ [Operation.create, .update], ∀ (r : Resolver) slot separator request input,
          Writes request k value input →
            Leaves request separator (r.injected slot (primarySnippets k o op)) ["args", "input"]
              (.map (input.put (.text (compositeName o k.sortFields)) (.text t)))) := by
  obtain ⟨key, hkey, hcomposite⟩ := itemKey_of_carries o hvalue
  obtain ⟨t, hencode', ht⟩ := shownComposite_of_carries o hvalue
  refine ⟨.object (key.mapValues AttributeValue.data), ?_, ?_, ?_⟩
  · intro r slot separator request hcarries
    exact leaves_get hk.legible hcarries hkey
  · intro op hop r slot separator request input hwrites
    exact leaves_write hop hk hwrites hkey ht
  · intro hc
    obtain ⟨u, hencode, hget⟩ := hcomposite hc
    -- the synthetic attribute in the key and the one in the input have one and the same text
    obtain rfl := Except.ok.inj (hencode.symm.trans hencode')
    refine ⟨u, hencode, ?_, fun op hop r slot separator request input hwrites =>
      leaves_composite hop hk hc hwrites hkey ht⟩
    rw [Data.member_object, Entries.get?_mapValues, hget]
    rfl

/-- Entries of a diary, in the order of their days. -/
def diaryKey : KeyDecl where
  object := { name := "Entry" }
  partition := { name := "owner", typeName := "ID" }
  sort := [{ name := "day", typeName := "String" }, { name := "draft", typeName := "String" }]
  sort_nodup := by decide
  partition_notMem_sort := by decide

/-- Scalars for an entry, with a reference and the separator among the texts. -/
def diaryValue : String → Scalar
  | "owner" => .text "$\x7bctx.args\x7d"
  | "day" => .text "3#4"
  | _ => .bool true

/-- Reading an entry and writing it, with a default value, leave one key. -/
theorem modelObjectKey_agrees_diary :
    ∃ key, Leaves
        { arguments := [("draft", .bool true), ("owner", .text "$\x7bctx.args\x7d"),
          ("day", .text "3#4")] } "#"
        (({ typeName := "Query", fieldName := "getEntry" } : Resolver).injected "postAuth"
          (primarySnippets diaryKey {} .get)) ["stash", "metadata", "modelObjectKey"] key ∧
      Leaves
        { arguments := [("input", .object [("owner", .text "$\x7bctx.args\x7d"),
            ("day", .text "3#4")])],
          defaultValues := some [("draft", .bool true), ("day", .text "1")] } "#"
        (({ typeName := "Mutation", fieldName := "createEntry" } : Resolver).injected "postAuth"
          (primarySnippets diaryKey {} .create)) ["stash", "metadata", "modelObjectKey"] key := by
  have hplain : diaryKey.Plain {} := ⟨by decide, by decide, by decide⟩
  have hvalue : Storable diaryKey diaryValue := by
    refine ⟨by decide, fun f hf => ?_⟩
    simp only [KeyDecl.fields, diaryKey, List.mem_cons, List.not_mem_nil, or_false] at hf
    rcases hf with rfl | rfl | rfl <;> exact ⟨_, rfl⟩
  obtain ⟨key, hread, hwrite, -⟩ := modelObjectKey_agrees hplain hvalue
  refine ⟨key, hread _ _ _ _ ?_, hwrite .create (by simp) _ _ _ _ _ ⟨rfl, ?_⟩⟩
  all_goals
    intro f hf
    simp only [KeyDecl.fields, diaryKey, List.mem_cons, List.not_mem_nil, or_false] at hf
    rcases hf with rfl | rfl | rfl <;> rfl

end Template

end TableKeys
