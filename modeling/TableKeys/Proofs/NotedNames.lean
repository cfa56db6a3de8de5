/-
# The names that templates note

A template for a composite key notes the schema name of its synthetic attribute in the name
overrides (`Machine.Guards.recordOverride`); apart from that its statements are local (`Noting`).
So after the templates of a slot on a request without name overrides (`Machine.start_guards`) the
overrides are what was noted, one name after the other (`runAll_noting`), and they stand in the
context as that (`Machine.Guards.read_overrides`).
-/
import TableKeys.Proofs.LocalStatements
import TableKeys.Proofs.SlotRun

namespace TableKeys

lemma Entries.put_ne_nil {κ α : Type} [BEq κ] (m : Entries κ α) (k : κ) (v : α) :
    m.put k v ≠ [] := by
  cases m with
  | nil => simp [put]
  | cons e m =>
    rw [put_cons]
    split <;> simp

namespace Template

open Snippet

variable {separator : String} {R : Records} {free : Address → Prop}
  {names : Entries String String} {m m' : Machine} {s : Store} {v : Value}

/-! ## Noting a name -/

namespace Machine.Guards

/-- A new cell may be kept out of the region. -/
lemma reserve (h : m.Guards R free names) (c : Cell) :
    { m with store := (m.store.alloc c).2 }.Guards R
      (fun a => free a ∧ a ≠ m.store.cells.size) names := by
  have hs := Store.Extends.alloc m.store c
  have hsize : (m.store.alloc c).2.cells.size = m.store.cells.size + 1 := by simp [Store.alloc]
  have hinside : ∀ {w : Value}, w.Inside free m.store →
      w.Inside (fun a => free a ∧ a ≠ m.store.cells.size) (m.store.alloc c).2 :=
    fun hw => hw.mono fun _ ha hlt => ⟨⟨ha, hlt.ne⟩, hlt.trans_le hs.size_le⟩
  have hold : ∀ {a : Address} {d : Cell}, m.store.get? a = some d →
      (m.store.alloc c).2.get? a = some d :=
    fun hd => (hs.get?_eq _ (Store.lt_of_get? hd)).trans hd
  obtain ⟨fields, hrequest, hstash, harguments⟩ := h.request
  obtain ⟨parts, hparts, hmetadata, hdefaults⟩ := h.stash
  obtain ⟨slots, v, hslots, hv, hnotes⟩ := h.metadata
  exact {
    sealed := by
      refine ⟨fun a ha => ?_, fun a d ha hd => ?_⟩
      · have hle : m.store.cells.size + 1 ≤ a := hsize ▸ ha
        exact ⟨h.sealed.new a (Nat.le_of_lt hle), Nat.ne_of_gt hle⟩
      · rw [Store.get?_alloc, if_neg ha.2] at hd
        exact (h.sealed.cell a d ha.1 hd).mono
          fun _ hb hlt => ⟨⟨hb, hlt.ne⟩, hlt.trans_le hs.size_le⟩
    context := h.context
    bound := h.bound
    inner := fun name w hctx hne hw => hinside (h.inner name w hctx hne hw)
    outside := ⟨mt And.left h.outside.1, mt And.left h.outside.2.1, mt And.left h.outside.2.2⟩
    request := ⟨fields, hold hrequest, hstash, hinside harguments⟩
    stash := ⟨parts, hold hparts, hmetadata, hinside hdefaults⟩
    metadata := by
      refine ⟨slots, v, hold hslots, hv, ?_⟩
      cases hnotes with
      | none hnames => exact .none hnames
      | some hnames hfree hcell => exact .some hnames (mt And.left hfree) (hold hcell) }

lemma resolve_overrides (h : m.Guards R free names) {fields : Entries Field Value}
    (hc : m.store.get? R.metadata = some (.record .metadata fields))
    (hv : fields.get? .nameOverrides = some v) :
    resolve m.store m.bindings ("ctx.stash.metadata." ++ nameOverridesName) = .ok v := by
  obtain ⟨parts, hparts, hmetadata, -⟩ := h.stash
  have hpath : resolve m.store m.bindings "ctx.stash.metadata" = .ok (.ref R.metadata) := by
    rw [show "ctx.stash.metadata" = "ctx.stash" ++ "." ++ "metadata" from rfl,
      resolve_child h.resolve_stash (by decide), Store.member_record hparts]
    simp [show RecordKind.stash.field? "metadata" = some .metadata by decide, hmetadata]
  rw [show "ctx.stash.metadata." ++ nameOverridesName =
      "ctx.stash.metadata" ++ "." ++ nameOverridesName from rfl,
    resolve_child hpath (by decide), Store.member_record hc]
  simp [show RecordKind.metadata.field? nameOverridesName = some .nameOverrides by decide, hv]

/-- The map of noted names may get another name. -/
lemma setNames (h : m.Guards R free names) {a : Address} {fields : Entries Field Value}
    (hc : m.store.get? R.metadata = some (.record .metadata fields))
    (hv : fields.get? .nameOverrides = some (.ref a)) (ha : ¬ free a)
    (hcell : m.store.get? a = some (.map (names.mapValues Value.text).texts))
    (name argument : String) :
    { m with store := m.store.set a (.map (((names.mapValues Value.text).texts).put (.text name)
      (.text argument))) }.Guards R free (names.put name argument) := by
  have hne : ∀ {b : Address} {kind : RecordKind} {fs : Entries Field Value},
      m.store.get? b = some (.record kind fs) → a ≠ b := by
    rintro b kind fs hb rfl
    rw [hcell] at hb
    cases hb
  obtain ⟨parts, hrequest, -⟩ := h.request
  obtain ⟨slots, hstash, -⟩ := h.stash
  refine h.setOutside ha (hne hrequest) (hne hstash) ⟨fields, .ref a, ?_, hv, .some ?_ ha ?_⟩
  · rwa [Store.get?_set_of_ne (hne hc)]
  · exact Entries.put_ne_nil _ _ _
  · rw [Store.get?_set_self hcell, Entries.mapValues_put, Entries.texts_put]

/-- **A name is noted**, in a new map if there is none yet. -/
theorem recordOverride (h : m.Guards R free names) {name argument : String}
    (hname : '$' ∉ name.toList) (hargument : '$' ∉ argument.toList)
    (hrun : (recordOverride name argument).exec separator m = .ok () m') :
    ∃ free', m'.Guards R free' (names.put name argument) := by
  obtain ⟨fields, v, hc, hv, hnotes⟩ := h.metadata
  have hpath := h.resolve_overrides hc hv
  have hcondition : (Expr.isNull nameOverrides).eval separator m = .ok (.bool v.isNull) m := by
    rw [Expr.eval, nameOverrides, Run.bind_ok (eval_ref hpath), Run.pure_apply]
  cases hnotes with
  | none hnames =>
    subst hnames
    have hobject : (Expr.object [(name, .text argument)]).eval separator m =
        .ok (.ref m.store.cells.size)
          { m with store := (m.store.alloc (.map [(.text name, .text argument)])).2 } := by
      have hentries : evalEntries separator [(name, .text argument)] m =
          .ok [(name, .text argument)] m := by
        rw [evalEntries, evalEntries, Run.bind_ok (eval_text_plain hargument)]
        rfl
      rw [Expr.eval, Run.bind_ok hentries]
      rfl
    have hput : (Snippet.recordOverride name argument).exec separator m =
        (Stmt.metadataPut nameOverridesName (.object [(name, .text argument)])).exec separator m :=
      (exec_choice_true hcondition rfl).trans (execBranch_singleton (by simp))
    have hfield : Template.metadataField nameOverridesName m =
        .ok (R.metadata, .nameOverrides) m := h.metadataField nameOverridesName
    have hnew : (m.store.alloc (.map [(.text name, .text argument)])).2.get? R.metadata =
        some (.record .metadata fields) :=
      ((Store.Extends.alloc _ _).get?_eq _ (Store.lt_of_get? hc)).trans hc
    rw [hput, Stmt.exec, Run.bind_ok hfield] at hrun
    dsimp only at hrun
    rw [Run.bind_ok hobject, putField_apply hnew] at hrun
    cases hrun
    refine ⟨_, (h.reserve (.map [(.text name, .text argument)])).setMetadata hnew
      (Entries.get?_put_self _ _ _) (.some (Entries.put_ne_nil _ _ _) (by simp) ?_)⟩
    exact Store.get?_alloc_new _ _
  | @some a hnames hfree hcell =>
    have hput : (Snippet.recordOverride name argument).exec separator m =
        (Stmt.mapPut nameOverrides (.text name) (.text argument)).exec separator m :=
      (exec_choice_false hcondition rfl).trans (execBranch_singleton (by simp))
    rw [hput, nameOverrides, exec_mapPut hpath hcell (eval_text_plain hargument) (.refl m)
      hname] at hrun
    cases hrun
    exact ⟨free, h.setNames hc hv hfree hcell name argument⟩

end Machine.Guards

/-! ## The start -/

/-- A cell that shows data is in the region. -/
lemma Shows.region {d : Data} {a : Address} (h : Shows s free d (.ref a)) : free a := by
  refine Shows.induction (motive := fun _ v => v = .ref a → free a) ?scalar ?list ?map ?record
    ?pair h rfl
  case map =>
    rintro es vs b hb hc row ⟨⟩
    exact hb
  case record =>
    rintro kind fs vs b hb hc row ⟨⟩
    exact hb
  all_goals
    intros
    contradiction

/-- The cell stands for none of the records of the request context. -/
def Layout.OffRecords (l : Layout) (a : Address) : Prop :=
  ∀ x ∈ [Spot.context, .stash, .metadata], a ≠ l.cell x

lemma Layout.Holds.offRecords {l : Layout} {sc : Scene} (h : l.Holds s sc) {x : Spot}
    (hx : Layout.Present sc x) (hne : x ∉ [Spot.context, .stash, .metadata]) :
    l.OffRecords (l.cell x) := by
  rintro y hy heq
  have hpresent : Layout.Present sc y := by
    cases y with
    | map p => simp at hy
    | _ => trivial
  rw [h.apart x y hx hpresent heq] at hne
  exact hne hy

lemma Layout.offRecords_of_not_named {l : Layout} {sc : Scene} {a : Address}
    (h : ¬ l.Named sc a) : l.OffRecords a := by
  rintro y hy rfl
  refine h ⟨y, ?_, rfl⟩
  cases y with
  | map p => simp at hy
  | _ => trivial

/-- A scene without name overrides is guarded. -/
lemma Machine.Holds.guards {l : Layout} {sc : Scene} (h : m.Holds l sc)
    (hnone : sc.maps .overrides = none) (hbindings : m.bindings = initialBindings m.context) :
    m.Guards ⟨l.cell .context, l.cell .stash, l.cell .metadata⟩
      (fun a => (∃ d, Shows m.store l.OffRecords d (.ref a)) ∨ m.store.cells.size ≤ a) [] := by
  have houtside : ∀ x, Layout.Present sc x → x ∈ [Spot.context, .stash, .metadata] →
      ¬ ((∃ d, Shows m.store l.OffRecords d (.ref (l.cell x))) ∨
        m.store.cells.size ≤ l.cell x) := by
    rintro x hpresent hx (⟨d, hd⟩ | hle)
    · exact hd.region x hx rfl
    · obtain ⟨c, hc, -⟩ := h.store.content x hpresent
      exact absurd (Store.lt_of_get? hc) (Nat.not_lt.mpr hle)
  obtain ⟨_, hrequest, r, e, rfl, -⟩ := h.store.content .context trivial
  obtain ⟨_, hstash, rfl⟩ := h.store.content .stash trivial
  obtain ⟨_, hmetadata, k, q, rfl, -⟩ := h.store.content .metadata trivial
  have hfree : ∀ a, ¬ l.Named sc a → l.OffRecords a := fun _ => Layout.offRecords_of_not_named
  have harguments := h.store.shows_arguments_in hfree
    (h.store.offRecords (x := .arguments) trivial (by simp))
    fun hpresent => h.store.offRecords hpresent (by simp)
  have hdefaults := h.store.shows_part_in (p := .defaults) hfree
    fun hpresent => h.store.offRecords hpresent (by simp)
  exact {
    sealed := m.store.sealed_of_shows l.OffRecords
    context := h.context
    bound := h.bound
    inner := fun name v hctx hcontext hv => by
      rw [hbindings, initialBindings] at hv
      simp [Entries.get?_cons, hctx.symm, hcontext.symm] at hv
    outside := ⟨houtside .context trivial (by simp), houtside .stash trivial (by simp),
      houtside .metadata trivial (by simp)⟩
    request := ⟨_, hrequest, rfl, harguments.inside⟩
    stash := ⟨_, hstash, rfl, hdefaults.inside⟩
    metadata := ⟨_, _, hmetadata, rfl, by
      rw [Layout.value_of_none hnone]
      exact .none rfl⟩ }

/-- **A request without name overrides is guarded from the start.** -/
theorem Machine.start_guards {request : Request} (h : request.metadata.nameOverrides = none) :
    ∃ R free, (Machine.start request).Guards R free [] := by
  obtain ⟨l, hl⟩ := Machine.start_holds request
  have hnone : request.scene.maps .overrides = none := by simp [Request.scene, h]
  exact ⟨_, _, hl.guards hnone rfl⟩

/-! ## Reading -/

/-- Noted names as data; null if there are none. -/
def overridesData (names : Entries String String) : Data :=
  if names.isEmpty then .null else .object (names.mapValues .text)

lemma Store.member_readCell {a : Address} {kind : RecordKind} {fields : Entries Field Value}
    (hc : s.get? a = some (.record kind fields)) {name : String} {field : Field}
    (hname : kind.field? name = some field) (hv : fields.get? field = some v) (n : Nat) :
    (s.readCell (n + 1) a).member name = v.fill (s.readCell n) := by
  rw [Store.readCell_record hc, Data.member, hname, Option.bind_some, Entries.get?_mapValues, hv]
  rfl

/-- A store has as many cells as differ in it. -/
lemma Store.length_le_size (s : Store) (cells : List Address) (h : cells.Nodup)
    (hlt : ∀ a ∈ cells, a < s.cells.size) : cells.length ≤ s.cells.size := by
  have hsub : cells ⊆ List.range s.cells.size := fun a ha => List.mem_range.mpr (hlt a ha)
  simpa using (h.subperm hsub).length_le

/-- **The noted names stand in the context.** -/
theorem Machine.Guards.read_overrides (h : m.Guards R free names) :
    (m.store.read m.context).follow ["stash", "metadata", nameOverridesName] =
      overridesData names := by
  obtain ⟨fields, hrequest, hstash, -⟩ := h.request
  obtain ⟨parts, hparts, hmetadata, -⟩ := h.stash
  obtain ⟨slots, v, hslots, hv, hnotes⟩ := h.metadata
  obtain ⟨hne₁, hne₂, hne₃⟩ := h.apart
  have hlt₁ := Store.lt_of_get? hrequest
  have hlt₂ := Store.lt_of_get? hparts
  have hlt₃ := Store.lt_of_get? hslots
  -- three records are read, one inside the other
  have hdeep : 3 ≤ m.store.cells.size := m.store.length_le_size
    [R.context, R.stash, R.metadata] (by simp [hne₁, hne₂, hne₃]) (by simp [hlt₁, hlt₂, hlt₃])
  obtain ⟨n, hn⟩ : ∃ n, m.store.cells.size = n + 3 := ⟨m.store.cells.size - 3, by omega⟩
  have hread : (m.store.read m.context).follow ["stash", "metadata", nameOverridesName] =
      v.fill (m.store.readCell n) := by
    rw [Store.read, h.context, hn]
    show (((m.store.readCell (n + 3) R.context).member "stash").member "metadata").member
      nameOverridesName = _
    rw [Store.member_readCell hrequest (show _ = some Field.stash by decide) hstash]
    show ((m.store.readCell (n + 2) R.stash).member "metadata").member nameOverridesName = _
    rw [Store.member_readCell hparts (show _ = some Field.metadata by decide) hmetadata]
    exact Store.member_readCell hslots (show _ = some Field.nameOverrides by decide) hv n
  rw [hread]
  cases hnotes with
  | none hnames =>
    rw [hnames]
    rfl
  | @some a hnames hfree hcell =>
    have hlt := Store.lt_of_get? hcell
    have hne : a ≠ R.context ∧ a ≠ R.stash ∧ a ≠ R.metadata := by
      refine ⟨?_, ?_, ?_⟩ <;> rintro rfl
      · rw [hrequest] at hcell
        cases hcell
      · rw [hparts] at hcell
        cases hcell
      · rw [hslots] at hcell
        cases hcell
    -- the map of the names is a fourth cell
    have hdeeper : 4 ≤ m.store.cells.size := m.store.length_le_size
      [a, R.context, R.stash, R.metadata] (by simp [hne, hne₁, hne₂, hne₃])
      (by simp [hlt, hlt₁, hlt₂, hlt₃])
    obtain ⟨k, rfl⟩ : ∃ k, n = k + 1 := ⟨n - 1, by omega⟩
    rw [Value.fill, Store.readCell_map hcell, overridesData,
      if_neg (by simpa [List.isEmpty_iff] using hnames)]
    simp [Data.object, Entries.texts, Entries.mapValues, Value.fill, Value.text, Data.text]

/-! ## Templates -/

/-- The statements note these names for these synthetic attributes, one after the other, and are
local otherwise. -/
inductive Noting : List Stmt → List (String × String) → Prop
  | nil : Noting [] []
  | step {s : Stmt} {ss : List Stmt} {notes : List (String × String)} (hs : s.Local)
      (h : Noting ss notes) : Noting (s :: ss) notes
  | note {name argument : String} {s : Stmt} {ss : List Stmt} {notes : List (String × String)}
      (hname : '$' ∉ name.toList) (hargument : '$' ∉ argument.toList) (hs : s.Local)
      (h : Noting ss notes) :
      Noting (.compound [recordOverride name argument, s] :: ss) ((name, argument) :: notes)

/-- **The statements leave what they note.** -/
theorem Noting.exec {ss : List Stmt} {notes : List (String × String)} (h : Noting ss notes)
    (hm : m.Guards R free names) (hrun : execAll separator ss m = .ok () m') :
    ∃ free', m'.Guards R free' (names.putAll notes) := by
  induction h generalizing free names m with
  | nil =>
    rw [execAll_nil] at hrun
    cases hrun
    exact ⟨free, hm⟩
  | step hs _ ih =>
    rw [execAll] at hrun
    obtain ⟨_, m₁, hfirst, hrest⟩ := of_bind_ok hrun
    exact ih (exec_local _ hs _ _ hm hfirst).guards hrest
  | note hname hargument hs _ ih =>
    rw [execAll] at hrun
    obtain ⟨_, m₁, hfirst, hrest⟩ := of_bind_ok hrun
    rw [Stmt.exec, execAll] at hfirst
    obtain ⟨_, m₂, hnote, hwrite⟩ := of_bind_ok hfirst
    rw [execAll_singleton] at hwrite
    obtain ⟨free₂, hm₂⟩ := hm.recordOverride hname hargument hnote
    exact ih (exec_local _ hs _ _ hm₂ hwrite).guards hrest

lemma run_noting {t : MappingTemplate} {notes : List (String × String)}
    (h : Noting (t.stages.map Node.asStmt) notes) (hm : m.Guards R free names)
    (hrun : t.run separator m = .ok v m') : ∃ free', m'.Guards R free' (names.putAll notes) := by
  obtain ⟨_, m₁, hexec, hrest⟩ :=
    of_bind_ok (x := Run.within (some t.name) _) (s := m.opened t.name) hrun
  cases hrest
  have hstatements : execAll separator (t.stages.map Node.asStmt) (m.opened t.name) =
      .ok () m' := by
    rw [Run.within] at hexec
    split at hexec
    · rename_i heq
      exact heq.trans hexec
    · cases hexec
  exact h.exec (hm.opened _) hstatements

/-- **The templates of a slot leave what they note.** -/
theorem runAll_noting {ts : List MappingTemplate} {notes : List (List (String × String))}
    (h : List.Forall₂ (fun t row => Noting (t.stages.map Node.asStmt) row) ts notes)
    (hm : m.Guards R free names)
    (hrun : MappingTemplate.runAll separator ts m = .ok () m') :
    ∃ free', m'.Guards R free' (names.putAll notes.flatten) := by
  induction h generalizing free names m with
  | nil =>
    cases hrun
    exact ⟨free, hm⟩
  | cons ht _ ih =>
    rw [MappingTemplate.runAll] at hrun
    obtain ⟨_, m₁, hfirst, hrest⟩ := of_bind_ok hrun
    obtain ⟨free₁, hm₁⟩ := run_noting ht hm hfirst
    rw [List.flatten_cons, Entries.putAll_append]
    exact ih hm₁ hrest

end Template

end TableKeys
