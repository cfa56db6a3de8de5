/-
# Operands of queries and stored keys

A query on a composite key gives its operand as a map of components, of which the last ones may
be missing. The components up to the first that is missing (`Entries.leading`) are put together in
a variable, and the text there is their encoded key (`assembleComposite_encodes`); they have no
encoded key only because a whole number has too many digits, and then the query ends with that
fault. What an item with the same leading components has in its synthetic attribute begins with
this text, and is this text if no component is missing. So a query finds what a write has stored.
-/
import TableKeys.Proofs.Injected
import TableKeys.Proofs.Operands

namespace TableKeys

/-- The fields up to the first that is missing or null. -/
def Entries.leading (es : Entries MapKey Data) (fields : List String) : List String :=
  fields.takeWhile fun f => !(es.field f).isNull

section Leading

variable {operand item : Entries MapKey Data} {o : Options} {fields : List String} {f : String}

lemma Entries.leading_isPrefix (es : Entries MapKey Data) (fields : List String) :
    es.leading fields <+: fields :=
  List.takeWhile_prefix _

lemma Entries.leading_of_present (h : ∀ f ∈ fields, (operand.field f).isNull = false) :
    operand.leading fields = fields :=
  List.takeWhile_eq_self_iff.mpr fun f hf => by rw [h f hf]; rfl

lemma Entries.isNull_of_mem_leading (h : f ∈ operand.leading fields) :
    (operand.field f).isNull = false := by
  simpa using List.mem_takeWhile_imp h

/-- Nothing is leading where the first field is null. -/
lemma Entries.leading_of_null {fs : List String} (h : (operand.field f).isNull = true) :
    operand.leading (f :: fs) = [] :=
  List.takeWhile_cons_of_neg (by simp [h])

lemma leadingTexts_map (operand : Entries MapKey Data) (fields : List String) :
    leadingTexts (.map operand) fields =
      ((operand.leading fields).map operand.field).mapM Data.interpolated := by
  rw [leadingTexts, List.takeWhile_map]
  rfl

/-- The encoded key of the components up to the first that is missing or null. -/
def encodeLeading (o : Options) (operand : Entries MapKey Data) (fields : List String) :
    Except CompositeError String :=
  encodeComposite o ((operand.leading fields).map operand.field)

/-- Leading scalars enter the variable as they enter an encoded key. -/
lemma encodeLeading_eq (o : Options) (h : ∀ f ∈ fields, ∃ a, operand.field f = .scalar a) :
    encodeLeading o operand fields =
      (o.keySeparator.intercalate <$> leadingTexts (.map operand) fields).mapError .unwritten := by
  rw [leadingTexts_map, encodeLeading]
  refine Template.encodeComposite_scalars o fun d hd => ?_
  obtain ⟨f, hf, rfl⟩ := List.mem_map.mp hd
  obtain ⟨a, ha⟩ := h f ((operand.leading_isPrefix fields).subset hf)
  refine ⟨a, ha, ?_⟩
  rintro rfl
  have hnull := Entries.isNull_of_mem_leading hf
  rw [ha] at hnull
  cases hnull

/-- Scalars have no text together only because one of them is too long. -/
lemma leadingTexts_error {e : Fault} (h : ∀ f ∈ fields, ∃ a, operand.field f = .scalar a)
    (he : leadingTexts (.map operand) fields = .error e) :
    e = .tooLong ∧ ∃ f ∈ operand.leading fields, (operand.field f).isWritable = false := by
  rw [leadingTexts_map, List.mapM_map] at he
  obtain ⟨f, hf, hfault⟩ := exists_of_mapM_error he
  obtain ⟨a, ha⟩ := h f ((operand.leading_isPrefix fields).subset hf)
  rw [Function.comp_apply, ha] at hfault
  obtain ⟨rfl, hlong⟩ := Template.interpolated_scalar_error hfault
  exact ⟨rfl, f, hf, by rw [ha]; exact hlong⟩

end Leading

namespace Template

open Snippet

lemma intercalate_isPrefix_append (separator : String) (ts us : List String) :
    (separator.intercalate ts).toList <+: (separator.intercalate (ts ++ us)).toList := by
  by_cases hts : ts = []
  · rw [hts]
    exact List.nil_prefix
  · by_cases hus : us = []
    · rw [hus, List.append_nil]
    · rw [String.intercalate_append_of_ne_nil hts hus, String.append_assoc, String.toList_append]
      exact List.prefix_append _ _

/-- The text begins with the text of the operand, and is the same if no component is null. -/
def Begun (operand : Entries MapKey Data) (fields : List String) (t u : String) : Prop :=
  t.toList <+: u.toList ∧ ((∀ f ∈ fields, operand.field f ≠ .null) → u = t)

section Stored

variable {operand item : Entries MapKey Data} {o : Options} {fields texts : List String}
  {path u : String}

/-- What an item with the same leading components has as its key begins with their texts. -/
lemma begun_of_agree (hscalar : ∀ f ∈ fields, ∃ a, operand.field f = .scalar a)
    (hagree : ∀ f ∈ operand.leading fields, item.field f = operand.field f)
    (hu : shownComposite o path item fields = .ok u) :
    ∃ t, encodeLeading o operand fields = .ok t ∧ Begun operand fields t u := by
  have hleading : (operand.leading fields).mapM (shownComponent path item) =
      leadingTexts (.map operand) fields := by
    rw [leadingTexts_map, List.mapM_map]
    refine mapM_congr_of_mem fun f hf => ?_
    have hnull := Entries.isNull_of_mem_leading hf
    rw [← hagree f hf] at hnull
    rw [shownComponent_present hnull, hagree f hf]
    rfl
  obtain ⟨all, hall, rfl⟩ := exists_of_map_eq_ok hu
  -- the texts of the item are those of the operand and perhaps more
  obtain ⟨rest, hrest⟩ := operand.leading_isPrefix fields
  have hsplit := hall
  rw [← hrest, List.mapM_append, hleading] at hsplit
  obtain ⟨texts, htexts, hsplit⟩ := exists_of_bind_eq_ok hsplit
  obtain ⟨us, -, hsplit⟩ := exists_of_bind_eq_ok hsplit
  obtain rfl := Except.ok.inj hsplit
  refine ⟨o.keySeparator.intercalate texts, ?_, intercalate_isPrefix_append _ _ _, ?_⟩
  · rw [encodeLeading_eq o hscalar, htexts]
    rfl
  · intro hpresent
    have hfields : operand.leading fields = fields := by
      refine Entries.leading_of_present fun f hf => ?_
      obtain ⟨a, ha⟩ := hscalar f hf
      rw [ha]
      exact isNull_scalar fun hnull => hpresent f hf (by rw [ha, hnull])
    rw [hfields, hall, htexts] at hleading
    rw [Except.ok.inj hleading]

end Stored

lemma exists_shownComposite (o : Options) (path : String) {item : Entries MapKey Data}
    {fields : List String} (h : ∀ f ∈ fields, ∃ s, (item.field f).interpolated = .ok s) :
    ∃ u, shownComposite o path item fields = .ok u := by
  obtain ⟨us, hus⟩ : ∃ us, fields.mapM (shownComponent path item) = .ok us := by
    refine exists_mapM_ok fun f hf => ?_
    unfold shownComponent
    split
    · exact ⟨_, rfl⟩
    · exact h f hf
  exact ⟨o.keySeparator.intercalate us, by rw [shownComposite, hus]; rfl⟩

/-- The run leaves a text in the input, under the name of a synthetic attribute. -/
def Stored (m : Machine) (input : Entries MapKey Data) (name t : String) : Prop :=
  ∃ sc, m.Merged sc ∧ sc.maps .input = some (input.put (.text name) (.text t))

/-- **Operands are encoded like stored values.** If the components are scalars, the variable has
the encoded key of the components up to the first that is null, whatever comes after it. These have
no encoded key only if a whole number among them has too many digits, and then the run ends with
the fault of it. Every item that agrees on these components gets a text stored that begins with the
encoded key, the same text if no component of the operand is null. The text does get stored if each
component of the item can enter a text and the name of the attribute is a plain one. -/
theorem assembleComposite_encodes {sc : Scene} {path name : String}
    {operand : Entries MapKey Data} {fields : List String} {o : Options}
    (hlength : 2 ≤ fields.length) (hfields : ∀ f ∈ fields, isSchemaName f = true)
    (hseparator : '$' ∉ o.keySeparator.toList) (hname : isSchemaName name = true)
    (hctx : name ≠ "ctx") (hbraced : isBracedPath path.toList = true)
    (hoperand : sc.Leads path (.map operand))
    (hscalar : ∀ f ∈ fields, ∃ a, operand.field f = .scalar a) :
    (∀ separator (m : Machine), m.Stages sc →
      match encodeLeading o operand fields with
      | .ok t => ((assembleComposite path fields name o).exec separator).Reaches m fun m' =>
          m'.bindings.get? name = some (.text t)
      | .error e => e = .unwritten .tooLong ∧
          ((assembleComposite path fields name o).exec separator).Faults .tooLong m) ∧
      ((∀ f ∈ operand.leading fields, (operand.field f).isWritable = true) →
        ∃ t, encodeLeading o operand fields = .ok t) ∧
      ((∃ f, fields.head? = some f ∧ operand.field f = .null) →
        encodeLeading o operand fields = .ok "") ∧
      ∀ (k : KeyDecl) conditionally upkeep, k.sortFields = fields →
        ensureCompositeKey k conditionally o = some upkeep →
        ∀ separator (m : Machine) sc' item input, m.Merged sc' → m.Writing conditionally →
          sc'.maps sc'.target = some item → sc'.maps .input = some input →
          (∀ f ∈ operand.leading fields, item.field f = operand.field f) →
          (∀ m', upkeep.exec separator m = .ok () m' →
            ∃ t synthetic u, encodeLeading o operand fields = .ok t ∧
              Stored m' input synthetic u ∧ Begun operand fields t u) ∧
          (k.Plain o → (∀ f ∈ fields, ∃ s, (item.field f).interpolated = .ok s) →
            (upkeep.exec separator).Reaches m fun m' =>
              ∃ t u, encodeLeading o operand fields = .ok t ∧
                Stored m' input (compositeName o fields) u ∧ Begun operand fields t u) := by
  refine ⟨?_, fun hwritable => ?_, ?_, ?_⟩
  · rintro separator m ⟨l, hl⟩
    have hassembled := exec_assembleComposite separator hl (.refl m) hoperand hbraced hname hctx
      hseparator hfields
    rw [encodeLeading_eq o hscalar]
    cases htexts : leadingTexts (.map operand) fields with
    | ok texts =>
      rw [htexts] at hassembled
      exact hassembled.mono fun m' hm' => hm'.2
    | error e =>
      rw [htexts] at hassembled
      obtain ⟨rfl, -⟩ := leadingTexts_error hscalar htexts
      exact ⟨rfl, hassembled⟩
  · rw [encodeLeading_eq o hscalar]
    cases htexts : leadingTexts (.map operand) fields with
    | ok texts => exact ⟨_, rfl⟩
    | error e =>
      obtain ⟨-, f, hf, hlong⟩ := leadingTexts_error hscalar htexts
      rw [hwritable f hf] at hlong
      cases hlong
  · rintro ⟨f, hf, hnull⟩
    obtain ⟨fs, rfl⟩ := List.head?_eq_some_iff.mp hf
    rw [encodeLeading, Entries.leading_of_null (by rw [hnull]; rfl)]
    rfl
  · rintro k conditionally upkeep rfl hupkeep separator m sc' item input hm hwriting hitem hinput
      hagree
    have hne : k.sortFields ≠ [] := by
      intro hnil
      rw [hnil] at hlength
      cases hlength
    have hcomposite : k.isComposite = true := by
      simp only [KeyDecl.sortFields, List.length_map] at hlength
      exact decide_eq_true hlength
    rw [ensureCompositeKey_eq hcomposite] at hupkeep
    obtain rfl := Option.some.inj hupkeep
    refine ⟨fun m' hrun => ?_, fun hk hshown => ?_⟩
    · obtain ⟨sc'', synthetic, u, hu, hm', hput⟩ :=
        compositeUpkeep_merged hm hseparator hne hfields hwriting hitem hinput hrun
      obtain ⟨t, ht, hbegun⟩ := begun_of_agree hscalar hagree hu
      exact ⟨t, synthetic, u, ht, ⟨sc'', hm', hput⟩, hbegun⟩
    · obtain ⟨u, hu⟩ := exists_shownComposite o mergedValues hshown
      obtain ⟨t, ht, hbegun⟩ := begun_of_agree hscalar hagree hu
      have hrun := exec_ensureCompositeKey separator hm hk hcomposite hwriting hitem hinput
      rw [hu] at hrun
      refine hrun.mono fun m' hm' => ⟨t, u, ht, ⟨_, hm'.1, Scene.putInput_input ?_ _ _⟩, hbegun⟩
      rw [Scene.noted_maps _ _ _ (by simp), hinput]

/-- The pages of a journal, in the order of their days. -/
def journalKey : KeyDecl where
  object := { name := "Page" }
  partition := { name := "owner", typeName := "ID" }
  sort := [{ name := "year", typeName := "Int" }, { name := "month", typeName := "Int" },
    { name := "day", typeName := "Int" }]
  sort_nodup := by decide
  partition_notMem_sort := by decide

/-- An operand with a year and a day, but without a month. -/
def monthless : Entries MapKey Data :=
  [(.text "year", .scalar (.int 2024)), (.text "month", .null), (.text "day", .scalar (.int 5))]

/-- A page from that year. -/
def page : Entries MapKey Data :=
  [(.text "year", .scalar (.int 2024)), (.text "month", .scalar (.int 3)),
    (.text "day", .scalar (.int 9))]

/-- Without a month, the operand is the year, with which the stored key of the page begins. -/
theorem assembleComposite_encodes_monthless :
    ∃ m₁ m₂ u,
      (assembleComposite "ctx.args.written" ["year", "month", "day"] "sortKeyValue" {}).exec "#"
          (Machine.start { arguments := [("written", .map monthless)] }) = .ok () m₁ ∧
        m₁.bindings.get? "sortKeyValue" = some (.text "2024") ∧
        execAll "#" [mergeInputsAndDefaults, compositeUpkeep journalKey false {}]
            (Machine.start { arguments := [("input", .map page)] }) = .ok () m₂ ∧
        Stored m₂ page "year#month#day" u ∧ "2024".toList <+: u.toList := by
  let query : Request := { arguments := [("written", .map monthless)] }
  let write : Request := { arguments := [("input", .map page)] }
  have hscalar : ∀ f ∈ ["year", "month", "day"], ∃ a, monthless.field f = .scalar a := by
    simp only [List.forall_mem_cons]
    exact ⟨⟨_, rfl⟩, ⟨_, rfl⟩, ⟨_, rfl⟩, by simp⟩
  have hoperand : query.scene.Leads "ctx.args.written" (.map monthless) :=
    query.scene.leads_argument (show isSchemaName "written" = true by decide)
  obtain ⟨hassemble, -, -, hstore⟩ := assembleComposite_encodes (o := {}) (by decide)
    (by decide) (by decide) (show isSchemaName "sortKeyValue" = true by decide) (by decide)
    (by decide) hoperand hscalar
  obtain ⟨m₁, hrun₁, hvariable⟩ := hassemble "#" _ (Machine.start_stages query)
  obtain ⟨m, hmerge, hm⟩ :=
    exec_mergeInputsAndDefaults "#" (Machine.start_stages write) (by decide)
  have hagree : ∀ f ∈ monthless.leading ["year", "month", "day"],
      page.field f = monthless.field f := by
    rw [show monthless.leading ["year", "month", "day"] = ["year"] from rfl]
    simp only [List.forall_mem_cons]
    exact ⟨rfl, by simp⟩
  obtain ⟨-, hwritten⟩ := hstore journalKey false _ rfl (ensureCompositeKey_eq rfl _ _) "#" m
    write.scene.merge page page hm (by simp [Machine.Writing]) write.scene.merge_target
    write.scene.merge_input hagree
  obtain ⟨m₂, hrun₂, t, u, ht, hu, hbegun⟩ := hwritten ⟨by decide, by decide, by decide⟩ (by
    simp only [List.forall_mem_cons]
    exact ⟨⟨_, rfl⟩, ⟨_, rfl⟩, ⟨_, rfl⟩, by simp⟩)
  obtain rfl : "2024" = t := Except.ok.inj ht
  refine ⟨m₁, m₂, u, hrun₁, hvariable, ?_, hu, hbegun.1⟩
  rw [execAll_cons_ok hmerge, execAll_singleton, hrun₂]

end Template

end TableKeys
