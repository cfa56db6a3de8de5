/-
# Running the templates of a mutation

The slot of a mutation holds a template for the primary key and one for each index with two or
more sort fields. They run one after the other on one request, and each puts at most one
synthetic attribute into the input. Since no synthetic attribute is named like a field, what a
template does to the input never disturbs what a later one finds (`Kept`).

* `Kept.exec_primary`, `Kept.exec_index`: what one template does;
* `runAll_keeps`: what all of them do.
-/
import TableKeys.Proofs.IndexUpkeep
import TableKeys.Proofs.KeyAgreement
import TableKeys.Proofs.Separation
import TableKeys.Proofs.SlotContents
import Mathlib.Data.List.Find

namespace TableKeys

namespace Entries

lemma putAll_append {κ α : Type} [BEq κ] (m : Entries κ α) (es fs : List (κ × α)) :
    m.putAll (es ++ fs) = (m.putAll es).putAll fs :=
  List.foldl_append

/-- Puts under texts that no schema has as a name. -/
def Synthetic (puts : List (MapKey × Data)) : Prop :=
  ∀ e ∈ puts, ∃ name, e.1 = .text name ∧ isSchemaName name = false

lemma last?_putAll_synthetic {puts : List (MapKey × Data)} (h : Synthetic puts) {f : String}
    (hf : isSchemaName f = true) (es : Entries MapKey Data) :
    last? (es.putAll puts) (.text f) = last? es (.text f) := by
  induction puts generalizing es with
  | nil => rfl
  | cons e puts ih =>
    obtain ⟨key, d⟩ := e
    obtain ⟨name, rfl, hname⟩ : ∃ name, key = .text name ∧ isSchemaName name = false :=
      h (key, d) (by simp)
    have hne : name ≠ f := by
      rintro rfl
      rw [hname] at hf
      cases hf
    rw [putAll_cons, ih (fun e he => h e (by simp [he])), last?_text_put hne]

lemma has_putAll_synthetic {puts : List (MapKey × Data)} (h : Synthetic puts) {f : String}
    (hf : isSchemaName f = true) (es : Entries MapKey Data) :
    (es.putAll puts).has (.text f) = es.has (.text f) := by
  rw [← isSome_last?, ← isSome_last?, last?_putAll_synthetic h hf]

end Entries

/-- Every field that is there has a scalar other than null with a stored form. -/
def ScalarFields (es : Entries MapKey Data) (fields : List String) : Prop :=
  ∀ f ∈ fields, ∀ d, es.get? (.text f) = some d →
    ∃ a, d = .scalar a ∧ a ≠ .null ∧ ∃ v, d.stored = .ok v

/-- The name of the synthetic attribute of a composite key is not that of a field, if the
separator of names has a character that names of fields do not have. -/
lemma isSchemaName_compositeName {k : KeyDecl} {o : Options} (hcomposite : k.isComposite = true)
    {c : Char} (hc : c ∈ o.nameSeparator.toList) (hschema : isSchemaChar c = false) :
    isSchemaName (compositeName o k.sortFields) = false := by
  have hlength : 1 < k.sortFields.length := by
    simpa [KeyDecl.isComposite, KeyDecl.sortFields] using hcomposite
  exact isSchemaName_intercalated hc hschema hlength

namespace Template

open Snippet Session

/-- Laying the input over the default values twice is laying it over them once. -/
lemma Scene.overlay_again {sc sc' : Scene} {f : String}
    (hdefaults : sc'.maps .defaults = sc.merge.maps .defaults)
    (hinput : Entries.last? ((sc'.maps .input).getD []) (.text f) =
      Entries.last? ((sc.maps .input).getD []) (.text f)) :
    sc'.overlay.get? (.text f) = sc.overlay.get? (.text f) := by
  rw [Scene.overlay, Entries.get?_text_putAll, hinput, hdefaults]
  cases hd : sc.maps .defaults with
  | none =>
    have htarget : sc.target = .merged := by simp [Scene.target, hd]
    rw [Scene.merge, htarget, Scene.setMap_of_ne _ _ (by simp), Scene.overlay,
      Entries.get?_text_putAll]
  | some d =>
    have htarget : sc.target = .defaults := by simp [Scene.target, hd]
    rw [Scene.merge, htarget, Scene.setMap_self, Option.getD_some, Scene.overlay,
      Entries.get?_text_putAll]
    cases Entries.last? ((sc.maps .input).getD []) (.text f) <;> rfl

/-! ## The invariant -/

/-- The synthetic attribute of a key whose fields are found in a map. -/
def syntheticEntry (o : Options) (es : Entries MapKey Data) (k : KeyDecl) : MapKey × Data :=
  (.text (compositeName o k.sortFields), match encodeComposite o (k.sortFields.map es.field) with
    | .ok t => .text t
    | .error _ => .null)

/-- A request on its way through the slot: the synthetic attributes of some keys are in the input,
and every field is found as before. -/
structure Kept (o : Options) (request : Request) (input : Entries MapKey Data)
    (keys : List KeyDecl) (sc : Scene) : Prop where
  input : sc.maps .input = some (input.putAll (keys.map (syntheticEntry o request.merged)))
  before : sc.before = request.scene.before
  overlay : ∀ f, isSchemaName f = true →
    sc.overlay.get? (.text f) = request.merged.get? (.text f)
  synthetic : ∀ k ∈ keys, isSchemaName (compositeName o k.sortFields) = false
  encoded : ∀ k ∈ keys, ∃ t, encodeComposite o (k.sortFields.map request.merged.field) = .ok t

namespace Kept

variable {o : Options} {request : Request} {input : Entries MapKey Data} {keys : List KeyDecl}
  {sc sc' : Scene}

lemma start (h : request.input? = some input) : Kept o request input [] request.scene :=
  ⟨h, rfl, fun _ _ => rfl, by simp, by simp⟩

lemma synthetic_puts (h : Kept o request input keys sc) :
    Entries.Synthetic (keys.map (syntheticEntry o request.merged)) := by
  intro e he
  obtain ⟨k, hk, rfl⟩ := List.mem_map.mp he
  exact ⟨_, rfl, h.synthetic k hk⟩

lemma overlay_again (h : Kept o request input keys sc)
    (hdefaults : sc'.maps .defaults = sc.merge.maps .defaults)
    (hinput : ∀ f, isSchemaName f = true → Entries.last? ((sc'.maps .input).getD []) (.text f) =
      Entries.last? ((sc.maps .input).getD []) (.text f)) :
    ∀ f, isSchemaName f = true → sc'.overlay.get? (.text f) = request.merged.get? (.text f) :=
  fun f hf => (Scene.overlay_again hdefaults (hinput f hf)).trans (h.overlay f hf)

/-- Nothing is put into the input. -/
lemma idle (h : Kept o request input keys sc)
    (hdefaults : sc'.maps .defaults = sc.merge.maps .defaults)
    (hinput : sc'.maps .input = sc.maps .input) (hbefore : sc'.before = sc.before) :
    Kept o request input keys sc' :=
  ⟨hinput.trans h.input, hbefore.trans h.before,
    h.overlay_again hdefaults fun _ _ => by rw [hinput], h.synthetic, h.encoded⟩

/-- One more synthetic attribute is put into the input. -/
lemma put (h : Kept o request input keys sc) {k : KeyDecl} {t : String}
    (hname : isSchemaName (compositeName o k.sortFields) = false)
    (ht : encodeComposite o (k.sortFields.map request.merged.field) = .ok t)
    (hdefaults : sc'.maps .defaults = sc.merge.maps .defaults)
    (hinput : sc'.maps .input = some
      ((input.putAll (keys.map (syntheticEntry o request.merged))).put
        (.text (compositeName o k.sortFields)) (.text t)))
    (hbefore : sc'.before = sc.before) : Kept o request input (keys ++ [k]) sc' := by
  have hsynthetic : ∀ k' ∈ keys ++ [k], isSchemaName (compositeName o k'.sortFields) = false := by
    intro k' hk'
    rcases List.mem_append.mp hk' with hk' | hk'
    · exact h.synthetic k' hk'
    · rwa [List.mem_singleton.mp hk']
  have hencoded : ∀ k' ∈ keys ++ [k],
      ∃ t, encodeComposite o (k'.sortFields.map request.merged.field) = .ok t := by
    intro k' hk'
    rcases List.mem_append.mp hk' with hk' | hk'
    · exact h.encoded k' hk'
    · rw [List.mem_singleton.mp hk']
      exact ⟨t, ht⟩
  refine ⟨?_, hbefore.trans h.before, h.overlay_again hdefaults fun f hf => ?_, hsynthetic,
    hencoded⟩
  · have hentry : syntheticEntry o request.merged k =
        (.text (compositeName o k.sortFields), .text t) := by rw [syntheticEntry, ht]
    rw [hinput, List.map_append, Entries.putAll_append, List.map_cons, List.map_nil, hentry]
    rfl
  · -- a field of the schema never has the name of a synthetic attribute
    have hne : compositeName o k.sortFields ≠ f := by
      rintro rfl
      rw [hname] at hf
      cases hf
    rw [hinput, h.input, Option.getD_some, Option.getD_some, Entries.last?_text_put hne]

/-! ## One template -/

section Steps

variable {m : Machine} {k : KeyDecl}

/-- The template for the primary key puts its synthetic attribute into the input, if it has
one. -/
theorem exec_primary (h : Kept o request input keys sc) (separator : String) (hm : m.Stages sc)
    {value : String → Scalar}
    (hk : k.Plain o) (hvalue : Storable k value) (hcarries : Carries k value request.merged)
    (hname : k.isComposite = true → isSchemaName (compositeName o k.sortFields) = false) :
    (execAll separator ([some mergeInputsAndDefaults, some (setPrimaryKey k true o),
      ensureCompositeKey k false o].filterMap id)).Reaches m fun m' => ∃ sc', m'.Stages sc' ∧
        Kept o request input (keys ++ if k.isComposite then [k] else []) sc' := by
  have hfields : Carries k value sc.overlay := by
    intro f hf
    rw [h.overlay f.name (hk.fields f hf)]
    exact hcarries f hf
  obtain ⟨key, hkey, -⟩ := itemKey_of_carries o hvalue
  obtain ⟨t, hencode, ht⟩ := shownComposite_of_carries o hvalue
  rw [← List.map_congr_left fun f hf => hcarries.sortField hf] at hencode
  have hwrite := exec_write separator hm (by simp [h.input]) hk
    (hkey mergedValues _ hfields) fun _ => ht mergedValues _ hfields
  refine hwrite.mono fun m' hm' => ⟨_, hm', ?_⟩
  cases hcomposite : k.isComposite with
  | false =>
    rw [Scene.written_of_single hcomposite, if_neg (by simp), List.append_nil]
    exact h.idle rfl sc.merge_input rfl
  | true =>
    rw [if_pos rfl]
    exact h.put (hname hcomposite) hencode Scene.written_defaults
      (Scene.written_input hcomposite h.input) Scene.written_before

/-- The input has the fields that it had. -/
lemma has_input (h : Kept o request input keys sc) {f : String} (hf : isSchemaName f = true) :
    (input.putAll (keys.map (syntheticEntry o request.merged))).has (.text f) =
      input.has (.text f) :=
  Entries.has_putAll_synthetic h.synthetic_puts hf input

lemma hasSome_input (h : Kept o request input keys sc) {fields : List String}
    (hfields : ∀ f ∈ fields, isSchemaName f = true) :
    (input.putAll (keys.map (syntheticEntry o request.merged))).hasSome fields =
      input.hasSome fields := by
  rw [Bool.eq_iff_iff, Entries.hasSome, Entries.hasSome, List.any_eq_true, List.any_eq_true]
  exact exists_congr fun f => and_congr_right fun hf => by rw [h.has_input (hfields f hf)]

lemma missingField?_input (h : Kept o request input keys sc) {fields : List String}
    (hfields : ∀ f ∈ fields, isSchemaName f = true) :
    missingField? (input.putAll (keys.map (syntheticEntry o request.merged))) fields =
      missingField? input fields := by
  rw [missingField?, missingField?, h.hasSome_input hfields,
    List.find?_congr fun f hf => by rw [h.has_input (hfields f hf)]]

/-- A field that the input has is found among the merged values. -/
lemma exists_overlay (h : Kept o request input keys sc) {f : String}
    (hhas : (input.putAll (keys.map (syntheticEntry o request.merged))).has (.text f) = true) :
    ∃ d, sc.overlay.get? (.text f) = some d := by
  rw [← Entries.isSome_last?] at hhas
  obtain ⟨d, hd⟩ := Option.isSome_iff_exists.mp hhas
  refine ⟨d, ?_⟩
  rw [Scene.overlay, h.input, Option.getD_some, Entries.get?_text_putAll, hd]
  rfl

/-- The template for an index refuses the input, puts the synthetic attribute into it or leaves
it alone. -/
theorem exec_index (h : Kept o request input keys sc) (separator : String) (mutation : KeyMutation)
    (hm : m.Stages sc) {i : IndexDecl} (hi : i.Plain o) (hcomposite : i.isComposite = true)
    (hscalar : ScalarFields request.merged i.sortFields)
    (hname : isSchemaName (compositeName o i.sortFields) = false) :
    (execAll separator (upkeep i o mutation)).Validates m i.name mutation
      (fun m' => ∃ sc', m'.Stages sc' ∧ Kept o request input
        (keys ++ if input.hasSome i.sortFields then [i.toKeyDecl] else []) sc')
      (missingField? input i.sortFields) := by
  rw [← h.missingField?_input hi.sortFields]
  cases hmissing : missingField? (input.putAll (keys.map (syntheticEntry o request.merged)))
      i.sortFields with
  | some f => exact exec_upkeep_refused separator mutation hm h.input hi hmissing
  | none =>
    rw [← h.hasSome_input hi.sortFields]
    cases hsome : (input.putAll (keys.map (syntheticEntry o request.merged))).hasSome
        i.sortFields with
    | false =>
      rw [if_neg (by simp), List.append_nil]
      refine (exec_upkeep_idle hm h.input hi hsome).mono fun m' hm' => ⟨_, hm', ?_⟩
      exact h.idle (Scene.noted_maps _ _ _ (by simp))
        ((Scene.noted_maps _ _ _ (by simp)).trans sc.merge_input) rfl
    | true =>
      have hfields : ∀ f ∈ i.sortFields,
          ∃ a, sc.overlay.field f = .scalar a ∧ a ≠ .null ∧ a.isWritable = true := by
        intro f hf
        obtain ⟨d, hd⟩ := h.exists_overlay (has_of_missingField?_none hsome hmissing f hf)
        rw [Entries.field, hd]
        rw [h.overlay f (hi.sortFields f hf)] at hd
        obtain ⟨a, rfl, hne, v, hv⟩ := hscalar f hf d hd
        exact ⟨a, rfl, hne, Data.isWritable_of_stored hv⟩
      obtain ⟨t, ht, hencode⟩ := shownComposite_ok o mergedValues hfields
      -- earlier templates have added synthetic attributes only, so the components are as requested
      have hsame : i.sortFields.map sc.overlay.field = i.sortFields.map request.merged.field :=
        List.map_congr_left fun f hf => by
          rw [Entries.field, h.overlay f (hi.sortFields f hf), Entries.field]
      rw [hsame] at hencode
      have hrun := exec_upkeep_complete separator mutation hm h.input hi hcomposite hsome hmissing
      rw [ht] at hrun
      refine hrun.mono fun m' hm' => ⟨_, hm', ?_⟩
      rw [if_pos rfl]
      refine h.put hname hencode ?_ (Scene.putInput_input ?_ _ _) rfl
      · rw [Scene.putInput, Scene.setMap_of_ne _ _ (by simp), Scene.noted_maps _ _ _ (by simp)]
      · rw [Scene.noted_maps _ _ _ (by simp), Scene.merge_input, h.input]

end Steps

end Kept

/-! ## All templates -/

/-- What a template in the slot of a mutation is for. -/
inductive Keeper where
  | primary
  | index (i : IndexDecl) (mutation : KeyMutation)

namespace Keeper

/-- The statements of a template. -/
def body (k : KeyDecl) (o : Options) : Keeper → List Stmt
  | primary => [some mergeInputsAndDefaults, some (setPrimaryKey k true o),
      ensureCompositeKey k false o].filterMap id
  | index i mutation => upkeep i o mutation

/-- The keys whose synthetic attributes a template puts into the input. -/
def keys (k : KeyDecl) (input : Entries MapKey Data) : Keeper → List KeyDecl
  | primary => if k.isComposite then [k] else []
  | index i _ => if input.hasSome i.sortFields then [i.toKeyDecl] else []

/-- How a template refuses the input. -/
def refusal? (input : Entries MapKey Data) : Keeper → Option Failure
  | primary => none
  | index i mutation => (missingField? input i.sortFields).map fun f =>
      .raised (refusalText i.name mutation f) .null

lemma within_refusal? {input : Entries MapKey Data} {w : Keeper} {e : Failure}
    (h : w.refusal? input = some e) (template : Option String) : e.within template = e := by
  cases w with
  | primary => cases h
  | index i mutation =>
    obtain ⟨f, -, rfl⟩ := Option.map_eq_some_iff.mp h
    rfl

end Keeper

/-- What the templates rely on: the key of the item can be made from the merged values, the fields
of indexes that are there are scalars that can be stored, and no synthetic attribute is named like
a field. -/
structure Sound (o : Options) (request : Request) (k : KeyDecl) (is : List IndexDecl) : Prop where
  primary : k.Plain o
  key : ∃ value, Storable k value ∧ Carries k value request.merged
  indexes : ∀ i ∈ is, i.Plain o
  names : ∀ i ∈ is, '$' ∉ i.name.toList
  scalars : ∀ i ∈ is, ScalarFields request.merged i.sortFields
  separator : ∃ c ∈ o.nameSeparator.toList, isSchemaChar c = false

section Slot

variable {o : Options} {request : Request} {input : Entries MapKey Data}
  {k : KeyDecl} {is : List IndexDecl} {keys : List KeyDecl} {sc : Scene} {m : Machine}

/-- The template belongs to the primary key or to one of the indexes with a composite key. -/
def Keeper.Among (is : List IndexDecl) : Keeper → Prop
  | primary => True
  | index i _ => i ∈ is ∧ i.isComposite = true

/-- **One template** refuses the input or keeps the invariant. -/
theorem Kept.exec_keeper (h : Kept o request input keys sc) (separator : String) (hm : m.Stages sc)
    (hsound : Sound o request k is) {w : Keeper} (hw : w.Among is) :
    match w.refusal? input with
    | some e => ∃ m', execAll separator (w.body k o) m = .error e m'
    | none => (execAll separator (w.body k o)).Reaches m fun m' => ∃ sc', m'.Stages sc' ∧
        Kept o request input (keys ++ w.keys k input) sc' := by
  obtain ⟨c, hc, hschema⟩ := hsound.separator
  cases w with
  | primary =>
    obtain ⟨value, hvalue, hcarries⟩ := hsound.key
    exact h.exec_primary separator hm hsound.primary hvalue hcarries
      fun hcomposite => isSchemaName_compositeName hcomposite hc hschema
  | index i mutation =>
    obtain ⟨hi, hcomposite⟩ := hw
    have hrun := h.exec_index separator mutation hm
      (hsound.indexes i hi) hcomposite (hsound.scalars i hi)
      (isSchemaName_compositeName hcomposite hc hschema)
    cases hmissing : missingField? input i.sortFields with
    | none =>
      rw [hmissing] at hrun
      simp only [Keeper.refusal?, hmissing, Option.map_none]
      exact hrun
    | some f =>
      rw [hmissing] at hrun
      obtain ⟨e, m', hfail, he⟩ := hrun
      simp only [Keeper.refusal?, hmissing, Option.map_some]
      rw [← he (hsound.names i hi)]
      exact ⟨m', hfail⟩

/-- **All templates of a slot**: the first that refuses the input ends the run; if there is none,
the invariant holds in the end, for all keys. -/
theorem runAll_keeps (separator : String) (hsound : Sound o request k is) {ws : List Keeper}
    {ts : List MappingTemplate} (hws : ∀ w ∈ ws, w.Among is)
    (hbodies : ts.map (fun t => t.stages.map Node.asStmt) = ws.map (Keeper.body k o))
    (h : Kept o request input keys sc) (hm : m.Stages sc) :
    match ws.findSome? (Keeper.refusal? input) with
    | some e => ∃ m', MappingTemplate.runAll separator ts m = .error e m'
    | none => (MappingTemplate.runAll separator ts).Reaches m fun m' => ∃ sc', m'.Stages sc' ∧
        Kept o request input (keys ++ ws.flatMap (Keeper.keys k input)) sc' := by
  induction ws generalizing ts keys sc m with
  | nil =>
    obtain rfl : ts = [] := List.map_eq_nil_iff.mp hbodies
    exact ⟨m, rfl, sc, hm, by simpa using h⟩
  | cons w ws ih =>
    match ts, hbodies with
    | t :: ts, hbodies =>
      obtain ⟨hbody, hbodies⟩ := List.cons.inj hbodies
      have hstep := h.exec_keeper separator (hm.opened t.name) hsound
        (hws w (by simp))
      rw [← hbody] at hstep
      rw [List.findSome?_cons]
      cases hrefusal : w.refusal? input with
      | some e =>
        rw [hrefusal] at hstep
        obtain ⟨m', hfail⟩ := hstep
        have hrun := run_error hfail
        rw [Keeper.within_refusal? hrefusal] at hrun
        exact ⟨m', by rw [MappingTemplate.runAll, Run.bind_error hrun]⟩
      | none =>
        rw [hrefusal] at hstep
        obtain ⟨m₁, hrun, sc₁, hm₁, h₁⟩ := run_reaches hstep
        have hrest := ih (fun w hw => hws w (by simp [hw])) hbodies h₁ hm₁
        -- the invariant holds for one more template's keys, and the rest runs from there
        have hall : MappingTemplate.runAll separator (t :: ts) m =
            MappingTemplate.runAll separator ts m₁ := by
          rw [MappingTemplate.runAll, Run.bind_ok hrun]
        rw [Run.Reaches, hall, List.flatMap_cons, ← List.append_assoc]
        exact hrest

end Slot

end Template

end TableKeys
