/-
# What the templates of a slot do

A template in the slot of a mutation leaves a key in the metadata, notes the schema names of
synthetic attributes and puts synthetic attributes into the input; it may do only some of this.
What it does (`Duty.effect`) is read off the scene that it finds, and it leads from one scene to
another (`Effect.Takes`). Effects are done one after the other, and doing one twice leaves
arguments and metadata as they are after the first time.

* `Duty.does`: what one template does, or how it fails;
* `Effect.Takes.again`: an effect done twice.
-/
import TableKeys.Proofs.SlotRun

namespace TableKeys

open Template Snippet Session

/-- What is done to the key data of a request: the key that is left, the schema names that are
noted and what is put into the input. -/
structure Effect where
  key : Option (Entries String AttributeValue) := none
  notes : Entries String String := []
  puts : Entries String Data := []

namespace Effect

/-- One effect after another. -/
def andThen (x y : Effect) : Effect where
  key := y.key.or x.key
  notes := x.notes ++ y.notes
  puts := x.puts ++ y.puts

/-- A key is left. -/
def ofKey (key : Entries String AttributeValue) : Effect where
  key := some key

/-- The schema name of a composite key is noted. -/
def ofNote (k : KeyDecl) (o : Options) : Effect where
  notes := [(compositeName o k.sortFields, compositeArgument k.sortFields)]

/-- The synthetic attribute of a composite key is put into the input. -/
def ofPut (k : KeyDecl) (o : Options) (t : String) : Effect where
  puts := [(compositeName o k.sortFields, .text t)]

lemma nil_andThen (x : Effect) : andThen {} x = x := by
  simp [andThen]

lemma andThen_nil (x : Effect) : x.andThen {} = x := by
  simp [andThen]

/-- What is put into the input is named like no field. -/
def Synthetic (x : Effect) : Prop :=
  ∀ p ∈ x.puts, isSchemaName p.1 = false

lemma Synthetic.of_andThen {x y : Effect} (h : (x.andThen y).Synthetic) :
    x.Synthetic ∧ y.Synthetic :=
  ⟨fun p hp => h p (List.mem_append_left _ hp), fun p hp => h p (List.mem_append_right _ hp)⟩

lemma Synthetic.texts {x : Effect} (h : x.Synthetic) : Entries.Synthetic x.puts.texts := by
  intro e he
  obtain ⟨p, hp, rfl⟩ := List.mem_map.mp he
  exact ⟨p.1, rfl, h p hp⟩

/-- The key in the metadata. -/
def keyOr (x : Effect) (d : Data) : Data :=
  (x.key.map fun key => .object (key.mapValues AttributeValue.data)).getD d

/-- The schema names with those that are noted. -/
def noted (x : Effect) (names : Option (Entries MapKey Data)) : Option (Entries MapKey Data) :=
  if x.notes.isEmpty then names
  else some ((names.getD []).putAll (x.notes.mapValues Data.text).texts)

lemma noted_andThen (x y : Effect) (names : Option (Entries MapKey Data)) :
    (x.andThen y).noted names = y.noted (x.noted names) := by
  cases hx : x.notes with
  | nil => simp [noted, andThen, hx]
  | cons n ns =>
    cases hy : y.notes with
    | nil => simp [noted, andThen, hx, hy]
    | cons n' ns' =>
      simp [noted, andThen, hx, hy, Entries.mapValues, Entries.texts, Entries.putAll]

/-- The effect leads from one scene to the other: nothing changes but the key, the noted names
and the input; fields are found among the merged values as before. -/
structure Takes (x : Effect) (sc sc' : Scene) : Prop where
  before : sc'.before = sc.before
  after : sc'.after = sc.after
  query : sc'.query = sc.query
  result : sc'.result = sc.result
  error : sc'.error = sc.error
  key : sc'.key = x.keyOr sc.key
  input : sc'.maps .input = (sc.maps .input).map (Entries.putAll · x.puts.texts)
  overrides : sc'.maps .overrides = x.noted (sc.maps .overrides)
  overlay : x.Synthetic → ∀ f, isSchemaName f = true →
    sc'.overlay.get? (.text f) = sc.overlay.get? (.text f)

namespace Takes

variable {x y : Effect} {sc sc₁ sc' : Scene}

lemma refl (sc : Scene) : Takes {} sc sc where
  before := rfl
  after := rfl
  query := rfl
  result := rfl
  error := rfl
  key := rfl
  input := by cases sc.maps .input <;> rfl
  overrides := rfl
  overlay _ _ _ := rfl

lemma trans (h : x.Takes sc sc₁) (h' : y.Takes sc₁ sc') : (x.andThen y).Takes sc sc' where
  before := h'.before.trans h.before
  after := h'.after.trans h.after
  query := h'.query.trans h.query
  result := h'.result.trans h.result
  error := h'.error.trans h.error
  key := by
    rw [h'.key, h.key]
    unfold keyOr andThen
    cases y.key <;> rfl
  input := by
    rw [h'.input, h.input, Option.map_map]
    congr 1
    funext es
    simp only [Function.comp_apply, andThen, Entries.texts, List.map_append, Entries.putAll_append]
  overrides := by rw [h'.overrides, h.overrides, noted_andThen]
  overlay hsynthetic f hf := by
    obtain ⟨hx, hy⟩ := hsynthetic.of_andThen
    rw [h'.overlay hy f hf, h.overlay hx f hf]

/-! ### Steps -/

lemma merge (sc : Scene) : Takes {} sc sc.merge where
  before := rfl
  after := rfl
  query := rfl
  result := rfl
  error := rfl
  key := rfl
  input := by
    rw [sc.merge_input]
    cases sc.maps .input <;> rfl
  overrides := Scene.setMap_of_ne sc _ sc.target_ne_overrides.symm
  overlay _ _ _ := Scene.overlay_again rfl (by rw [sc.merge_input])

lemma keyed (sc : Scene) (key : Entries String AttributeValue) :
    (ofKey key).Takes sc (sc.keyed (.object (key.mapValues AttributeValue.data))) where
  before := rfl
  after := rfl
  query := rfl
  result := rfl
  error := rfl
  key := rfl
  input := by
    rw [Scene.keyed_maps]
    cases sc.maps .input <;> rfl
  overrides := rfl
  overlay _ _ _ := rfl

lemma note (sc : Scene) (k : KeyDecl) (o : Options) : (ofNote k o).Takes sc (sc.noted k o) where
  before := rfl
  after := rfl
  query := rfl
  result := rfl
  error := rfl
  key := rfl
  input := by
    rw [Scene.noted_maps _ _ _ (by simp)]
    cases sc.maps .input <;> rfl
  overrides := Scene.setMap_self sc _ _
  overlay _ _ _ := by
    rw [Scene.overlay, Scene.overlay, Scene.noted_maps _ _ _ (by simp),
      Scene.noted_maps _ _ _ (by simp)]

lemma put (k : KeyDecl) (o : Options) (t : String) {inp : Entries MapKey Data}
    (hinp : sc.maps .input = some inp) :
    (ofPut k o t).Takes sc (sc.putInput (compositeName o k.sortFields) (.text t)) where
  before := rfl
  after := rfl
  query := rfl
  result := rfl
  error := rfl
  key := rfl
  input := by
    rw [Scene.putInput_input hinp, hinp]
    rfl
  overrides := Scene.setMap_of_ne sc _ (by simp)
  overlay hsynthetic f hf := by
    have hname : isSchemaName (compositeName o k.sortFields) = false :=
      hsynthetic (compositeName o k.sortFields, .text t) (by simp [ofPut])
    -- a field of the schema never has the name of a synthetic attribute
    have hne : compositeName o k.sortFields ≠ f := by
      rintro rfl
      rw [hname] at hf
      cases hf
    rw [Scene.overlay, Scene.overlay, Entries.get?_text_putAll, Entries.get?_text_putAll,
      Scene.putInput_input hinp, hinp, Option.getD_some, Option.getD_some,
      Entries.last?_text_put hne, Scene.putInput, Scene.setMap_of_ne sc _ (by simp)]

/-! ### An effect done twice -/

end Takes

end Effect

/-! ## Templates -/

/-- What a template is for. -/
inductive Duty where
  /-- The key of an item is read off the arguments. -/
  | read (k : KeyDecl)
  /-- An item is written with its key. -/
  | write (k : KeyDecl)
  /-- An item is deleted under its key. -/
  | delete (k : KeyDecl)
  /-- An index is kept up to date when an item is written. -/
  | keep (i : IndexDecl) (mutation : KeyMutation)
  /-- An index is kept up to date when an item is deleted. -/
  | keepDeleted (i : IndexDecl)

namespace Duty

/-- The statements of the template. -/
def body (o : Options) : Duty → List Stmt
  | read k => (primarySnippets k o .get).filterMap id
  | write k => (primarySnippets k o .create).filterMap id
  | delete k => (primarySnippets k o .delete).filterMap id
  | keep i mutation => upkeep i o mutation
  | keepDeleted i => [mergeInputsAndDefaults, compositeUpkeep i.toKeyDecl false o]

/-- The key that the template is about. -/
def key : Duty → KeyDecl
  | read k | write k | delete k => k
  | keep i _ | keepDeleted i => i.toKeyDecl

/-- Names are those of a schema, and nothing that is fixed holds a reference. -/
def Valid (o : Options) : Duty → Prop
  | read k | write k | delete k => k.Plain o
  | keep i _ => i.Plain o ∧ i.isComposite = true ∧ '$' ∉ i.name.toList
  | keepDeleted i => i.Plain o ∧ i.isComposite = true

/-- The key of an item is left. -/
def keyEffect (k : KeyDecl) (o : Options) (path : String) (es : Entries MapKey Data) :
    Except Failure Effect :=
  (Effect.ofKey <$> itemKey k o path es).mapError .fault

/-- The synthetic attribute of a key is noted and put into the input. -/
def upkeepEffect (k : KeyDecl) (o : Options) (merged : Entries MapKey Data) :
    Except Failure Effect :=
  ((fun t => (Effect.ofNote k o).andThen (.ofPut k o t)) <$>
    shownComposite o mergedValues merged k.sortFields).mapError .fault

/-- What the template does, if it does not fail: a key is read off the arguments, an item is
written with the merged values, and an index is kept if the input has its fields. -/
def effect (o : Options) (sc : Scene) : Duty → Except Failure Effect
  | read k => keyEffect k o (keyPath false) sc.arguments
  | write k => do
    let made ← keyEffect k o mergedValues sc.overlay
    let kept ← (if k.isComposite then upkeepEffect k o sc.overlay else .ok {})
    return made.andThen kept
  | delete k => keyEffect k o mergedValues sc.overlay
  | keep i mutation =>
    match missingField? ((sc.maps .input).getD []) i.sortFields with
    | some f => .error (.raised (refusalText i.name mutation f) .null)
    | none =>
      if ((sc.maps .input).getD []).hasSome i.sortFields then upkeepEffect i.toKeyDecl o sc.overlay
      else .ok (.ofNote i.toKeyDecl o)
  | keepDeleted i => upkeepEffect i.toKeyDecl o sc.overlay

end Duty

/-- The run does what the effect says, or fails as it says. -/
def Template.Run.Does (x : Run Unit) (m : Machine) (sc : Scene) : Except Failure Effect → Prop
  | .ok y => x.Reaches m fun m' => ∃ sc', m'.Stages sc' ∧ y.Takes sc sc'
  | .error e => ∃ m', x m = .error e m'

namespace Duty

section Running

variable {o : Options} {separator : String} {m m₁ : Machine} {sc sc₁ : Scene}
  {inp : Entries MapKey Data} {k : KeyDecl} {i : IndexDecl}

/-- What is done after some effect. -/
lemma does_after {x : Run Unit} {x' : Run Unit} {y : Effect} {r : Except Failure Effect}
    (hrun : x m = x' m₁) (hy : y.Takes sc sc₁) (h : x'.Does m₁ sc₁ r) :
    x.Does m sc (y.andThen <$> r) := by
  cases r with
  | ok z =>
    obtain ⟨m', hx', sc', hm', hz⟩ := h
    exact ⟨m', hrun.trans hx', sc', hm', hy.trans hz⟩
  | error e =>
    obtain ⟨m', hx'⟩ := h
    exact ⟨m', hrun.trans hx'⟩

lemma does_afterMerge {x : Run Unit} {x' : Run Unit} {r : Except Failure Effect}
    (hrun : x m = x' m₁) (h : x'.Does m₁ sc.merge r) : x.Does m sc r := by
  have hall := does_after hrun (.merge sc) h
  have hmap : (Effect.andThen {}) <$> r = r := by
    rw [show Effect.andThen {} = id from funext Effect.nil_andThen, id_map]
  rwa [hmap] at hall

/-- Once the merged values have their name, the synthetic attribute of a key is kept. -/
lemma does_upkeep (separator : String) {conditionally : Bool} (h : m.Merged sc) (hk : k.Plain o)
    (hcomposite : k.isComposite = true) (hwriting : m.Writing conditionally)
    {es : Entries MapKey Data} (hes : sc.maps sc.target = some es)
    (hinp : sc.maps .input = some inp) :
    ((compositeUpkeep k conditionally o).exec separator).Does m sc (upkeepEffect k o es) := by
  have hrun := exec_ensureCompositeKey separator h hk hcomposite hwriting hes hinp
  unfold upkeepEffect
  cases ht : shownComposite o mergedValues es k.sortFields with
  | error f =>
    rw [ht] at hrun
    exact hrun
  | ok t =>
    rw [ht] at hrun
    have hinp' : (sc.noted k o).maps .input = some inp := by
      rw [Scene.noted_maps _ _ _ (by simp), hinp]
    exact hrun.mono fun m' hm' =>
      ⟨_, hm'.1.stages, (Effect.Takes.note sc k o).trans (.put k o t hinp')⟩

/-- The key of an item is read off the arguments; the synthetic attribute must stand apart only if
the key cannot be made. -/
lemma does_read (separator : String) (hm : m.Stages sc) (hk : k.Legible o)
    (hapart : ∀ f, keyEffect k o (keyPath false) sc.arguments = .error (.fault f) → k.Apart o) :
    (execAll separator ((primarySnippets k o .get).filterMap id)).Does m sc
      (keyEffect k o (keyPath false) sc.arguments) := by
  obtain ⟨l, hl⟩ := hm
  have hexec : execAll separator ((primarySnippets k o .get).filterMap id) m =
      (setPrimaryKey k false o).exec separator m := execAll_singleton _
  unfold keyEffect at hapart ⊢
  cases hkey : itemKey k o (keyPath false) sc.arguments with
  | ok key =>
    obtain ⟨m', hset, hm'⟩ := exec_setPrimaryKey hl hk
      (leadsTo_arguments hl) hkey
    exact ⟨m', hexec.trans hset, _, ⟨l, hm'.1⟩, .keyed sc key⟩
  | error f =>
    obtain ⟨m', hfail⟩ := exec_setPrimaryKey_error hl hk
      (hapart f (by rw [hkey]; rfl)) (leadsTo_arguments hl) hkey
    exact ⟨m', hexec.trans hfail⟩

/-- A write makes its key out of the merged values before it does anything else. -/
lemma does_writeKey (separator : String) {rest : List Stmt} {r : Except Failure Effect}
    (hm : m.Stages sc) (hinp : sc.maps .input = some inp) (hk : k.Legible o)
    (hapart : ∀ f, keyEffect k o mergedValues sc.overlay = .error (.fault f) → k.Apart o)
    (hrest : ∀ m₂ key, m₂.Merged (sc.merge.keyed key) →
      (execAll separator rest).Does m₂ (sc.merge.keyed key) r) :
    (execAll separator (mergeInputsAndDefaults :: setPrimaryKey k true o :: rest)).Does m sc (do
      let made ← keyEffect k o mergedValues sc.overlay
      let kept ← r
      return made.andThen kept) := by
  obtain ⟨m₁, hmerge, hm₁⟩ := exec_mergeInputsAndDefaults separator hm (by simp [hinp])
  unfold keyEffect at hapart ⊢
  cases hkey : itemKey k o mergedValues sc.overlay with
  | ok key =>
    obtain ⟨m₂, hset, hm₂⟩ :=
      exec_setPrimaryKey_merged hm₁ hk sc.merge_target hkey
    have hafter := does_after (execAll_cons_ok hset) (.keyed sc.merge key) (hrest m₂ _ hm₂)
    exact does_afterMerge (execAll_cons_ok hmerge) hafter
  | error f =>
    have hpath := leadsTo_merged hm₁ sc.merge_target
    obtain ⟨l, hl, -⟩ := hm₁
    obtain ⟨m₂, hfail⟩ := exec_setPrimaryKey_error hl hk
      (hapart f (by rw [hkey]; rfl)) hpath hkey
    exact ⟨m₂, by rw [execAll_cons_ok hmerge, execAll_cons_error hfail]⟩

/-- An index is checked and kept. -/
lemma does_keep (separator : String) (mutation : KeyMutation) (hm : m.Stages sc)
    (hinp : sc.maps .input = some inp) (hi : i.Plain o) (hcomposite : i.isComposite = true)
    (hname : '$' ∉ i.name.toList) :
    (execAll separator (upkeep i o mutation)).Does m sc
      ((keep i mutation).effect o sc) := by
  have hnoted := (Effect.Takes.merge sc).trans (.note sc.merge i.toKeyDecl o)
  rw [Effect.nil_andThen] at hnoted
  cases hmissing : missingField? inp i.sortFields with
  | some f =>
    obtain ⟨e, m', hfail, he⟩ :=
      exec_upkeep_refused (o := o) separator mutation hm hinp hi hmissing
    simp only [effect, hinp, Option.getD_some, hmissing]
    exact ⟨m', by rw [← he hname]; exact hfail⟩
  | none =>
    cases hsome : inp.hasSome i.sortFields with
    | false =>
      simp only [effect, hinp, Option.getD_some, hmissing, hsome, Bool.false_eq_true, if_false]
      exact (exec_upkeep_idle hm hinp hi hsome).mono fun m' hm' => ⟨_, hm', hnoted⟩
    | true =>
      have hrun := exec_upkeep_complete separator mutation hm hinp hi hcomposite hsome hmissing
      simp only [effect, hinp, Option.getD_some, hmissing, hsome, if_true, upkeepEffect]
      cases ht : shownComposite o mergedValues sc.overlay i.sortFields with
      | error f =>
        rw [ht] at hrun
        exact hrun
      | ok t =>
        rw [ht] at hrun
        have hinp' : (sc.merge.noted i.toKeyDecl o).maps .input = some inp := by
          rw [Scene.noted_maps _ _ _ (by simp), sc.merge_input, hinp]
        exact hrun.mono fun m' hm' => ⟨_, hm', hnoted.trans (.put i.toKeyDecl o t hinp')⟩

/-- **What one template does.** The synthetic attribute of its key must stand apart only if the
template fails with a fault. -/
theorem does (separator : String) {w : Duty} (hm : m.Stages sc) (hinp : sc.maps .input = some inp)
    (hw : w.Valid o)
    (hapart : ∀ f, w.effect o sc = .error (.fault f) → w.key.Apart o) :
    (execAll separator (w.body o)).Does m sc (w.effect o sc) := by
  have hinp₁ : sc.merge.maps .input = some inp := by rw [sc.merge_input, hinp]
  have hwriting : ∀ m : Machine, m.Writing false := fun m => by simp [Machine.Writing]
  cases w with
  | read k => exact does_read separator hm (KeyDecl.Plain.legible hw) hapart
  | write k =>
    have hfails : ∀ f, keyEffect k o mergedValues sc.overlay = .error (.fault f) → k.Apart o :=
      fun f hf => hapart f (by rw [effect, hf]; rfl)
    rw [effect]
    cases hcomposite : k.isComposite with
    | false =>
      have hbody : (write k).body o = [mergeInputsAndDefaults, setPrimaryKey k true o] := by
        simp [body, primarySnippets, ensureCompositeKey, hcomposite]
      rw [hbody]
      exact does_writeKey separator hm hinp (KeyDecl.Plain.legible hw) hfails
        fun m₂ key hm₂ => ⟨m₂, execAll_nil, _, hm₂.stages, .refl _⟩
    | true =>
      have hbody : (write k).body o =
          [mergeInputsAndDefaults, setPrimaryKey k true o, compositeUpkeep k false o] := by
        simp [body, primarySnippets, ensureCompositeKey_eq hcomposite]
      rw [hbody]
      refine does_writeKey separator hm hinp (KeyDecl.Plain.legible hw) hfails fun m₂ key hm₂ => ?_
      have hall := does_upkeep separator hm₂ hw hcomposite (hwriting m₂) sc.merge_target hinp₁
      rw [if_pos rfl]
      unfold Run.Does Run.Reaches at hall ⊢
      rwa [execAll_singleton]
  | delete k =>
    have hnothing : ∀ m₂ key, m₂.Merged (sc.merge.keyed key) →
        (execAll separator []).Does m₂ (sc.merge.keyed key) (.ok {}) :=
      fun m₂ key hm₂ => ⟨m₂, execAll_nil, _, hm₂.stages, .refl _⟩
    have hdone := does_writeKey separator hm hinp (KeyDecl.Plain.legible hw) hapart hnothing
    have heffect : (do
        let made ← keyEffect k o mergedValues sc.overlay
        let kept ← Except.ok {}
        return made.andThen kept) = keyEffect k o mergedValues sc.overlay := by
      cases keyEffect k o mergedValues sc.overlay with
      | ok x => exact congrArg Except.ok x.andThen_nil
      | error e => rfl
    rw [heffect] at hdone
    exact hdone
  | keep i mutation =>
    obtain ⟨hi, hcomposite, hname⟩ := hw
    exact does_keep separator mutation hm hinp hi hcomposite hname
  | keepDeleted i =>
    obtain ⟨hi, hcomposite⟩ := hw
    obtain ⟨m₁, hmerge, hm₁⟩ := exec_mergeInputsAndDefaults separator hm (by simp [hinp])
    refine does_afterMerge ((execAll_cons_ok hmerge).trans (execAll_singleton _)) ?_
    exact does_upkeep separator hm₁ hi hcomposite (hwriting m₁) sc.merge_target hinp₁

end Running

end Duty

end TableKeys
