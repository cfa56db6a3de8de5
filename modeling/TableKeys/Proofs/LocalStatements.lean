/-
# Statements that leave the request context alone

The records of a request context stand outside of a sealed region into which the arguments, the
default values and the variables of a template lead (`Machine.Guards`). A statement that reads and
writes only what these lead to is local (`Stmt.Local`); executing it keeps the records, and with
them the name overrides in the metadata, whatever the request holds (`exec_local`).

* `Machine.Guards.frame`: changes of the region and of variables;
* `Machine.Guards.resolve_inside`: local paths lead inside.
-/
import TableKeys.Proofs.Assignments
import TableKeys.Proofs.Writes

namespace TableKeys.Template

/-- The cells of the records of a request context. -/
structure Records where
  context : Address
  stash : Address
  metadata : Address

/-- The value stands for these names: null if there are none, a map outside of the region if there
are some. -/
inductive Store.Notes (s : Store) (free : Address → Prop) (names : Entries String String) :
    Value → Prop
  | none (h : names = []) : Notes s free names .null
  | some {a : Address} (h : names ≠ []) (hfree : ¬ free a)
      (hcell : s.get? a = some (.map (names.mapValues Value.text).texts)) :
      Notes s free names (.ref a)

/-- The cells outside of a region are as they were. -/
structure Store.Spares (free : Address → Prop) (s s' : Store) : Prop where
  size_le : s.cells.size ≤ s'.cells.size
  get?_eq : ∀ a, ¬ free a → s'.get? a = s.get? a

/-- The records of the context stand outside of a sealed region, the arguments, the default values
and all other variables are inside, and these names are noted. -/
structure Machine.Guards (m : Machine) (R : Records) (free : Address → Prop)
    (names : Entries String String) : Prop where
  sealed : m.store.Sealed free
  context : m.context = .ref R.context
  bound : m.bindings.get? "ctx" = some (.ref R.context)
  inner : ∀ name v, name ≠ "ctx" → name ≠ "context" → m.bindings.get? name = some v →
    v.Inside free m.store
  outside : ¬ free R.context ∧ ¬ free R.stash ∧ ¬ free R.metadata
  request : ∃ fields, m.store.get? R.context = some (.record .request fields) ∧
    fields.get? .stash = some (.ref R.stash) ∧
    ((fields.get? .arguments).getD .null).Inside free m.store
  stash : ∃ fields, m.store.get? R.stash = some (.record .stash fields) ∧
    fields.get? .metadata = some (.ref R.metadata) ∧
    ((fields.get? .defaultValues).getD .null).Inside free m.store
  metadata : ∃ fields v, m.store.get? R.metadata = some (.record .metadata fields) ∧
    fields.get? .nameOverrides = some v ∧ m.store.Notes free names v

/-- From one machine to another one with these records and names: no cells are lost. -/
structure Machine.Stays (m m' : Machine) (R : Records) (free : Address → Prop)
    (names : Entries String String) : Prop where
  guards : m'.Guards R free names
  size_le : m.store.cells.size ≤ m'.store.cells.size

variable {separator : String} {R : Records} {free : Address → Prop}
  {names : Entries String String} {m m' m₁ : Machine} {s s' : Store} {v : Value}

lemma Machine.Guards.stays (h : m.Guards R free names) : m.Stays m R free names :=
  ⟨h, le_rfl⟩

lemma Machine.Stays.trans (h : m.Stays m₁ R free names) (h' : m₁.Stays m' R free names) :
    m.Stays m' R free names :=
  ⟨h'.guards, h.size_le.trans h'.size_le⟩

lemma Value.Inside.grow (h : v.Inside free s) (hsize : s.cells.size ≤ s'.cells.size) :
    v.Inside free s' :=
  h.mono fun _ ha hlt => ⟨ha, hlt.trans_le hsize⟩

lemma Store.Spares.of_extends (hs : s.Sealed free) (h : s.Extends s') : s.Spares free s' where
  size_le := h.size_le
  get?_eq a ha := h.get?_eq a (Nat.lt_of_not_le fun hle => ha (hs.new a hle))

lemma Store.Spares.set {a : Address} (ha : free a) (c : Cell) : s.Spares free (s.set a c) where
  size_le := by simp [Store.set]
  get?_eq b hb := by
    have hne : a ≠ b := by
      rintro rfl
      exact hb ha
    exact Store.get?_set_of_ne hne c

lemma Store.Notes.spare (h : s.Notes free names v) (hs : s.Spares free s') :
    s'.Notes free names v := by
  cases h with
  | none hnames => exact .none hnames
  | some hnames hfree hcell => exact .some hnames hfree ((hs.get?_eq _ hfree).trans hcell)

/-! ## What keeps the records -/

namespace Machine.Guards

/-- **Nothing outside of the region changes**, so records and names are as they were. -/
theorem frame (h : m.Guards R free names) (hsealed : m'.store.Sealed free)
    (hspares : m.store.Spares free m'.store) (hcontext : m'.context = m.context)
    (hbound : m'.bindings.get? "ctx" = m.bindings.get? "ctx")
    (hinner : ∀ name v, name ≠ "ctx" → name ≠ "context" → m'.bindings.get? name = some v →
      v.Inside free m'.store) : m'.Guards R free names := by
  obtain ⟨fields, hrequest, hstash, harguments⟩ := h.request
  obtain ⟨parts, hparts, hmetadata, hdefaults⟩ := h.stash
  obtain ⟨slots, v, hslots, hv, hnotes⟩ := h.metadata
  exact {
    sealed := hsealed
    context := hcontext.trans h.context
    bound := hbound.trans h.bound
    inner := hinner
    outside := h.outside
    request := ⟨fields, (hspares.get?_eq _ h.outside.1).trans hrequest, hstash,
      harguments.grow hspares.size_le⟩
    stash := ⟨parts, (hspares.get?_eq _ h.outside.2.1).trans hparts, hmetadata,
      hdefaults.grow hspares.size_le⟩
    metadata := ⟨slots, v, (hspares.get?_eq _ h.outside.2.2).trans hslots, hv,
      hnotes.spare hspares⟩ }

lemma extend (h : m.Guards R free names) (hm : m.Extends m') (hsealed : m'.store.Sealed free) :
    m'.Guards R free names :=
  h.frame hsealed (.of_extends h.sealed hm.store) hm.context (by rw [hm.bindings])
    fun name v hctx hcontext hv => (h.inner name v hctx hcontext (by rwa [← hm.bindings])).grow
      hm.store.size_le

lemma setVariable (h : m.Guards R free names) {name : String} (hname : name ≠ "ctx")
    (hv : v.Inside free m.store) :
    { m with bindings := m.bindings.put name v }.Guards R free names := by
  refine h.frame h.sealed (.of_extends h.sealed (.refl _)) rfl
    (Entries.get?_put_of_ne _ _ (by simpa using hname)) fun other w hctx hcontext hw => ?_
  by_cases hother : name = other
  · subst hother
    obtain rfl := Option.some.inj ((Entries.get?_put_self m.bindings name v).symm.trans hw)
    exact hv
  · refine h.inner other w hctx hcontext ?_
    rwa [← Entries.get?_put_of_ne m.bindings v (by simpa using hother)]

lemma setCell (h : m.Guards R free names) {a : Address} (ha : free a) {c : Cell}
    (hc : c.Inside free m.store) : { m with store := m.store.set a c }.Guards R free names := by
  have hspares := Store.Spares.set (s := m.store) ha c
  exact h.frame (h.sealed.set fun _ => hc) hspares rfl rfl fun name v hctx hcontext hv =>
    (h.inner name v hctx hcontext hv).grow hspares.size_le

/-- A template starts with the context alone. -/
lemma opened (h : m.Guards R free names) (log : List Event) :
    { m.restart with log := log }.Guards R free names := by
  refine h.frame h.sealed (.of_extends h.sealed (.refl _)) rfl ?_ fun name v hctx hcontext hv => ?_
  · rw [h.bound, ← h.context]
    rfl
  · have hnone : (initialBindings m.context).get? name = none := by
      simp [initialBindings, Entries.get?_cons, hctx.symm, hcontext.symm]
    cases hnone.symm.trans hv

end Machine.Guards

/-! ## Paths inside -/

/-- A name of a variable that a template may use for itself. -/
structure LocalName (name : String) : Prop where
  schema : isSchemaName name = true
  ne_ctx : name ≠ "ctx"
  ne_context : name ≠ "context"

/-- A path to the arguments, the default values or a variable, or from there. -/
inductive LocalPath : String → Prop
  | arguments : LocalPath "ctx.args"
  | defaults : LocalPath "ctx.stash.defaultValues"
  | own {name : String} (h : LocalName name) : LocalPath name
  | child {path : String} (h : LocalPath path) (rest : String) : LocalPath (path ++ "." ++ rest)

lemma LocalPath.ne_empty {path : String} (h : LocalPath path) : path ≠ "" := by
  cases h with
  | arguments | defaults => decide
  | own h =>
    rintro rfl
    exact absurd h.schema (by decide)
  | child h rest => simp

namespace Machine.Guards

lemma resolve_ctx (h : m.Guards R free names) :
    resolve m.store m.bindings "ctx" = .ok (.ref R.context) := by
  rw [resolve_variable m.store m.bindings (by decide), h.bound]
  rfl

lemma resolve_stash (h : m.Guards R free names) :
    resolve m.store m.bindings "ctx.stash" = .ok (.ref R.stash) := by
  obtain ⟨fields, hc, hstash, -⟩ := h.request
  rw [show "ctx.stash" = "ctx" ++ "." ++ "stash" from rfl,
    resolve_child h.resolve_ctx (by decide), Store.member_record hc]
  simp [show RecordKind.request.field? "stash" = some .stash by decide, hstash]

/-- **Local paths lead inside.** -/
theorem resolve_inside (h : m.Guards R free names) {path : String} (hpath : LocalPath path) :
    ∀ {w}, resolve m.store m.bindings path = .ok w → w.Inside free m.store := by
  induction hpath with
  | arguments =>
    intro w hw
    obtain ⟨fields, hc, -, harguments⟩ := h.request
    rw [show "ctx.args" = "ctx" ++ "." ++ "args" from rfl,
      resolve_child h.resolve_ctx (by decide), Store.member_record hc] at hw
    obtain rfl := Except.ok.inj hw
    exact harguments
  | defaults =>
    intro w hw
    obtain ⟨fields, hc, -, hdefaults⟩ := h.stash
    rw [show "ctx.stash.defaultValues" = "ctx.stash" ++ "." ++ "defaultValues" from rfl,
      resolve_child h.resolve_stash (by decide), Store.member_record hc] at hw
    obtain rfl := Except.ok.inj hw
    exact hdefaults
  | @own name hname =>
    intro w hw
    rw [resolve_variable m.store m.bindings hname.schema] at hw
    obtain rfl := Except.ok.inj hw
    cases hv : m.bindings.get? name with
    | none => exact .scalar _
    | some v => exact h.inner name v hname.ne_ctx hname.ne_context hv
  | @child path hpath rest ih =>
    intro w hw
    rw [resolve_append] at hw
    obtain ⟨u, hparent, hrest⟩ := exists_of_bind_eq_ok hw
    exact follow_inside h.sealed (ih hparent) hrest

lemma leadsInside (h : m.Guards R free names) {path : String} (hpath : LocalPath path) :
    LeadsInside free m path := by
  intro m₁ v m' hm hs hrun
  obtain ⟨hresolve, rfl⟩ := of_resolve_ok hrun
  exact ⟨.refl _, hs, (h.extend hm hs).resolve_inside hpath hresolve⟩

end Machine.Guards

/-! ## Expressions -/

/-- The expression refers to arguments, default values and variables only. -/
def Expr.Local (e : Expr) : Prop :=
  ∀ path ∈ e.paths, LocalPath path

/-- An expression of this kind changes nothing and has its value inside. -/
lemma Machine.Guards.eval {e : Expr} (h : m.Guards R free names) (he : e.Local)
    (hrun : e.eval separator m = .ok v m') :
    m.Stays m' R free names ∧ v.Inside free m'.store := by
  obtain ⟨hm, hs, hv⟩ := keeps_eval e (fun path hpath => h.leadsInside (he path hpath)) m v m'
    (.refl m) h.sealed hrun
  exact ⟨⟨h.extend hm hs, hm.store.size_le⟩, hv⟩

/-! ## Writing inside -/

/-- From a machine with these records and names the run goes on to one with the same. -/
def Run.Guarded (R : Records) (free : Address → Prop) (names : Entries String String)
    (x : Run Unit) : Prop :=
  ∀ m m', m.Guards R free names → x m = .ok () m' → m.Stays m' R free names

lemma Run.asKey_ok {k : MapKey} (h : Run.asKey v m = .ok k m') : m' = m := by
  rw [Run.asKey, Run.bind_ok (Run.read_apply v)] at h
  cases hkey : (m.store.read v).asKey with
  | error f =>
    rw [hkey] at h
    cases h
  | ok k' =>
    rw [hkey] at h
    cases h
    rfl

namespace Machine.Guards

lemma putEntry (h : m.Guards R free names) {a : Address} (ha : free a) {k : MapKey}
    (hv : v.Inside free m.store) (hrun : Run.putEntry a k v m = .ok () m') :
    m.Stays m' R free names := by
  cases hc : m.store.get? a with
  | some c =>
    cases c with
    | map entries =>
      rw [putEntry_apply hc] at hrun
      cases hrun
      have hcell : (Cell.map (entries.put k v)).Inside free m.store :=
        Entries.forall_mem_put (P := Value.Inside free m.store) (h.sealed.cell a _ ha hc) hv
      exact ⟨h.setCell ha hcell, (Store.Spares.set ha _).size_le⟩
    | record kind fields =>
      rw [Run.putEntry, Run.get_bind, hc] at hrun
      cases hrun
      exact h.stays
  | none =>
    rw [Run.putEntry, Run.get_bind, hc] at hrun
    cases hrun
    exact h.stays

/-- What is assigned to a variable, or under a name of something inside, stays inside. -/
lemma assign (h : m.Guards R free names) {path : String}
    (hpath : (splitLast path).1 = "" → (splitLast path).2 ≠ "ctx")
    (hparent : (splitLast path).1 ≠ "" → LocalPath (splitLast path).1)
    (hv : v.Inside free m.store) (hrun : assign path v m = .ok () m') :
    m.Stays m' R free names := by
  rcases assign_ok hrun with ⟨hempty, rfl⟩ | ⟨a, c, c', hne, hresolve, hc, hwrite, rfl⟩
  · exact ⟨h.setVariable (hpath hempty) hv, le_rfl⟩
  · have ha : free a := by
      cases h.resolve_inside (hparent hne) hresolve with
      | ref ha _ => exact ha
    have hinside := h.sealed.cell a c ha hc
    have hcell : c'.Inside free m.store := by
      cases c with
      | map entries =>
        obtain rfl := Option.some.inj hwrite
        exact Entries.forall_mem_put (P := Value.Inside free m.store) hinside hv
      | record kind fields =>
        obtain ⟨field, -, rfl⟩ := Option.map_eq_some_iff.mp hwrite
        exact Entries.forall_mem_put (P := Value.Inside free m.store) hinside hv
    exact ⟨h.setCell ha hcell, (Store.Spares.set ha _).size_le⟩

lemma mapAt (h : m.Guards R free names) {path : String} (hpath : LocalPath path) {a : Address}
    (hrun : mapAt path m = .ok a m') : m' = m ∧ free a := by
  rw [Template.mapAt] at hrun
  obtain ⟨target, m₁, hresolve, hrest⟩ := of_bind_ok hrun
  obtain ⟨hw, rfl⟩ := of_resolve_ok hresolve
  rw [Run.get_bind] at hrest
  cases h.resolve_inside hpath hw with
  | @ref b ha _ =>
    cases hentries : m.store.entries? (.ref b) with
    | none =>
      rw [hentries] at hrest
      cases hrest
    | some entries =>
      rw [hentries] at hrest
      cases hrest
      exact ⟨rfl, ha⟩
  | _ => cases hrest

/-! ### Merging -/

lemma mergeEntries (h : m.Guards R free names) {a : Address} (ha : free a)
    {entries : List (MapKey × Value)} (hentries : ∀ e ∈ entries, e.2.Inside free m.store)
    (hrun : mergeEntries a entries m = .ok () m') :
    m.Stays m' R free names := by
  induction entries generalizing m with
  | nil =>
    cases hrun
    exact h.stays
  | cons e entries ih =>
    obtain ⟨k, v⟩ := e
    obtain ⟨hv, hrest⟩ := List.forall_mem_cons.mp hentries
    rw [Template.mergeEntries] at hrun
    obtain ⟨_, m₁, hput, hlater⟩ := of_bind_ok hrun
    have h₁ := h.putEntry ha hv hput
    exact h₁.trans (ih h₁.guards (fun e he => (hrest e he).grow h₁.size_le) hlater)

end Machine.Guards

/-- The members of something inside are inside. -/
lemma Store.Sealed.members {vs : List Value} (hs : s.Sealed free) (hv : v.Inside free s)
    (h : s.members? v = some vs) : ∀ w ∈ vs, w.Inside free s := by
  cases hv with
  | scalar a =>
    obtain ⟨items, -, rfl⟩ := Option.map_eq_some_iff.mp h
    intro w hw
    obtain ⟨b, -, rfl⟩ := List.mem_map.mp hw
    exact .scalar b
  | list hitems =>
    obtain rfl := Option.some.inj h
    exact hitems
  | pair name hw =>
    obtain rfl := Option.some.inj h
    simpa using ⟨.scalar (.text name), hw⟩
  | @ref a ha hlt =>
    cases hentries : s.entries? (.ref a) with
    | some entries =>
      rw [Store.members?.eq_def] at h
      simp only [hentries] at h
      obtain rfl := Option.some.inj h
      intro w hw
      obtain ⟨k, -, rfl⟩ := List.mem_map.mp hw
      exact Value.inside_ofKey k
    | none =>
      rw [Store.members?.eq_def] at h
      simp only [hentries] at h
      obtain ⟨⟨kind, fields⟩, hrecord, rfl⟩ := Option.map_eq_some_iff.mp h
      intro w hw
      obtain ⟨f, hf, rfl⟩ := List.mem_map.mp hw
      exact .pair _ (hs.fields (.ref ha hlt) hrecord f hf)

namespace Machine.Guards

lemma pairOf (h : m.Guards R free names) {position : Nat} {element : Value}
    (helement : element.Inside free m.store) {pair : Value × Value}
    (hrun : pairOf position element m = .ok pair m') :
    m' = m ∧ pair.2.Inside free m.store := by
  rw [Template.pairOf, Run.get_bind] at hrun
  cases hmembers : m.store.members? element with
  | none =>
    rw [hmembers] at hrun
    cases hrun
  | some vs =>
    rw [hmembers] at hrun
    match vs, hrun with
    | [key, value], hrun =>
      cases hrun
      exact ⟨rfl, h.sealed.members helement hmembers value (by simp)⟩

lemma mergePairs (h : m.Guards R free names) {a : Address} (ha : free a) {position : Nat}
    {elements : List Value} (helements : ∀ v ∈ elements, v.Inside free m.store)
    (hrun : mergePairs a position elements m = .ok () m') :
    m.Stays m' R free names := by
  induction elements generalizing m position with
  | nil =>
    cases hrun
    exact h.stays
  | cons element elements ih =>
    obtain ⟨helement, hrest⟩ := List.forall_mem_cons.mp helements
    rw [Template.mergePairs] at hrun
    obtain ⟨⟨key, value⟩, m₁, hpair, hpairs⟩ := of_bind_ok hrun
    obtain ⟨rfl, hvalue⟩ := h.pairOf helement hpair
    obtain ⟨k, m₂, hkey, hputs⟩ := of_bind_ok hpairs
    obtain rfl := Run.asKey_ok hkey
    obtain ⟨_, m₃, hput, hlater⟩ := of_bind_ok hputs
    have h₃ := h.putEntry ha hvalue hput
    exact h₃.trans (ih h₃.guards (fun v hv => (hrest v hv).grow h₃.size_le) hlater)

lemma merge (h : m.Guards R free names) {a : Address} (ha : free a)
    (hv : v.Inside free m.store) (hrun : merge a v m = .ok () m') :
    m.Stays m' R free names := by
  rw [Template.merge, Run.get_bind] at hrun
  cases hentries : m.store.entries? v with
  | some entries =>
    rw [hentries] at hrun
    exact h.mergeEntries ha (h.sealed.entries hv hentries) hrun
  | none =>
    rw [hentries] at hrun
    cases helements : m.store.members? v with
    | some elements =>
      simp only [helements] at hrun
      exact h.mergePairs ha (h.sealed.members hv helements) hrun
    | none =>
      simp only [helements] at hrun
      cases hrun

/-! ### Metadata -/

/-- The metadata are found through the context. -/
lemma metadataField (h : m.Guards R free names) (name : String) :
    metadataField name m = match RecordKind.metadata.field? name with
      | some field => .ok (R.metadata, field) m
      | none => .error (.misuse (.unknownMetadata name)) m := by
  obtain ⟨fields, hrequest, hstash, -⟩ := h.request
  obtain ⟨parts, hparts, hmetadata, -⟩ := h.stash
  obtain ⟨slots, -, hslots, -⟩ := h.metadata
  rw [Template.metadataField, Run.get_bind, h.bound, Option.getD_some,
    Run.bind_ok (partOf_ok hrequest rfl hstash), Run.bind_ok (partOf_ok hparts rfl hmetadata),
    Run.get_bind, Store.record?, hslots]
  dsimp only
  cases RecordKind.metadata.field? name <;> rfl

/-- Records of different kinds stand in different cells. -/
lemma apart (h : m.Guards R free names) :
    R.context ≠ R.stash ∧ R.context ≠ R.metadata ∧ R.stash ≠ R.metadata := by
  obtain ⟨fields, hrequest, -⟩ := h.request
  obtain ⟨parts, hparts, -⟩ := h.stash
  obtain ⟨slots, -, hslots, -⟩ := h.metadata
  refine ⟨fun heq => ?_, fun heq => ?_, fun heq => ?_⟩
  · rw [heq, hparts] at hrequest
    cases hrequest
  · rw [heq, hslots] at hrequest
    cases hrequest
  · rw [heq, hslots] at hparts
    cases hparts

/-- A cell outside may change, if it is neither the context nor the stash and the metadata then
hold what stands for some names. -/
lemma setOutside (h : m.Guards R free names) {a : Address} {c : Cell}
    {names' : Entries String String} (ha : ¬ free a) (hcontext : a ≠ R.context)
    (hstash : a ≠ R.stash) (hmetadata : ∃ fields v,
      (m.store.set a c).get? R.metadata = some (.record .metadata fields) ∧
      fields.get? .nameOverrides = some v ∧ (m.store.set a c).Notes free names' v) :
    { m with store := m.store.set a c }.Guards R free names' := by
  have hsize : m.store.cells.size ≤ (m.store.set a c).cells.size := by simp [Store.set]
  obtain ⟨parts, hrequest, hparts, harguments⟩ := h.request
  obtain ⟨slots, hstashed, hslots, hdefaults⟩ := h.stash
  exact {
    sealed := h.sealed.set fun hfree => absurd hfree ha
    context := h.context
    bound := h.bound
    inner := fun name w hctx hne hw => (h.inner name w hctx hne hw).grow hsize
    outside := h.outside
    request := ⟨parts, by rwa [Store.get?_set_of_ne hcontext], hparts, harguments.grow hsize⟩
    stash := ⟨slots, by rwa [Store.get?_set_of_ne hstash], hslots, hdefaults.grow hsize⟩
    metadata := hmetadata }

/-- The metadata may get other fields. -/
lemma setMetadata (h : m.Guards R free names) {fields fields' : Entries Field Value} {v : Value}
    {names' : Entries String String}
    (hc : m.store.get? R.metadata = some (.record .metadata fields))
    (hv : fields'.get? .nameOverrides = some v) (hnotes : m.store.Notes free names' v) :
    { m with store := m.store.set R.metadata (.record .metadata fields') }.Guards R free
      names' := by
  obtain ⟨-, hcontext, hstash⟩ := h.apart
  refine h.setOutside h.outside.2.2 hcontext.symm hstash.symm ⟨fields', v, ?_, hv, ?_⟩
  · exact Store.get?_set_self hc
  · cases hnotes with
    | none hnames => exact .none hnames
    | @some a hnames hfree hcell =>
      refine .some hnames hfree ?_
      refine (Store.get?_set_of_ne ?_ _).trans hcell
      rintro rfl
      rw [hc] at hcell
      cases hcell

lemma putField (h : m.Guards R free names) {field : Field} (hfield : field ≠ .nameOverrides)
    (v : Value) (hrun : Run.putField R.metadata field v m = .ok () m') :
    m.Stays m' R free names := by
  obtain ⟨fields, w, hc, hw, hnotes⟩ := h.metadata
  rw [putField_apply hc] at hrun
  cases hrun
  refine ⟨h.setMetadata hc ?_ hnotes, by simp [Store.set]⟩
  rw [Entries.get?_put_of_ne _ _ (by simpa using hfield), hw]

/-! ### Loops -/

lemma loopMembers (h : m.Guards R free names) (hv : v.Inside free m.store) {vs : List Value}
    (hrun : loopMembers v m = .ok vs m') : m' = m ∧ ∀ w ∈ vs, w.Inside free m.store := by
  have hmembers : ∀ vs, (m.store.members? v).getD [] = vs → ∀ w ∈ vs, w.Inside free m.store := by
    rintro vs rfl w hw
    cases hs : m.store.members? v with
    | none =>
      rw [hs] at hw
      cases hw
    | some ws =>
      rw [hs] at hw
      exact h.sealed.members hv hs w hw
  rw [Template.loopMembers, Run.get_bind] at hrun
  cases v with
  | scalar a =>
    dsimp only at hrun
    split at hrun
    · cases hrun
      exact ⟨rfl, by simp⟩
    · cases hs : m.store.members? (.scalar a) with
      | none =>
        rw [hs] at hrun
        cases hrun
      | some ws =>
        rw [hs] at hrun
        cases hrun
        exact ⟨rfl, hmembers vs (by rw [hs]; rfl)⟩
  | _ =>
    cases hrun
    exact ⟨rfl, hmembers _ rfl⟩

end Machine.Guards

lemma forMembers_guarded {name : String} {body : Run Unit} (hname : name ≠ "ctx")
    (hbody : body.Guarded R free names) {vs : List Value} (h : m.Guards R free names)
    (hvs : ∀ v ∈ vs, v.Inside free m.store) (hrun : forMembers name body vs m = .ok () m') :
    m.Stays m' R free names := by
  induction vs generalizing m with
  | nil =>
    cases hrun
    exact h.stays
  | cons v vs ih =>
    obtain ⟨hv, hrest⟩ := List.forall_mem_cons.mp hvs
    rw [forMembers] at hrun
    obtain ⟨_, m₁, hset, hlater⟩ := of_bind_ok hrun
    cases hset
    obtain ⟨_, m₂, hdone, hlast⟩ := of_bind_ok hlater
    have h₂ : m.Stays m₂ R free names :=
      .trans ⟨h.setVariable hname hv, le_rfl⟩ (hbody _ _ (h.setVariable hname hv) hdone)
    exact h₂.trans (ih h₂.guards (fun w hw => (hrest w hw).grow h₂.size_le) hlast)

/-! ## Statements -/

/-- The path of an assignment to a variable, or under a name of something inside. -/
inductive Assignable : String → Prop
  | own {name : String} (h : LocalName name) : Assignable name
  | child {path name : String} (h : LocalPath path) (hname : '.' ∉ name.toList) :
    Assignable (child path name)

mutual

/-- The statement reads arguments, default values and variables only, and writes into these and
into fields of the metadata other than the name overrides. -/
def Stmt.Local : Stmt → Prop
  | .set (.ref path) value => Assignable path ∧ value.Local
  | .mapPut (.ref path) key value => LocalPath path ∧ key.Local ∧ value.Local
  | .putAll (.ref path) value => LocalPath path ∧ value.Local
  | .set .. | .mapPut .. | .putAll .. => False
  | .metadataPut name value =>
    RecordKind.metadata.field? name ≠ some .nameOverrides ∧ value.Local
  | .choice condition body none => condition.Local ∧ AllLocal body
  | .choice condition body (some otherwise) =>
    condition.Local ∧ AllLocal body ∧ AllLocal otherwise
  | .forEach name items body => name ≠ "ctx" ∧ items.Local ∧ AllLocal body
  | .emit value => value.Local
  | .block _ body | .compound body => AllLocal body
  | .error .. | .stray _ | .unlisted .. => True

/-- All statements are of this kind. -/
def AllLocal : List Stmt → Prop
  | [] => True
  | s :: ss => s.Local ∧ AllLocal ss

end

lemma allLocal_iff {ss : List Stmt} : AllLocal ss ↔ ∀ s ∈ ss, s.Local := by
  induction ss with
  | nil => simp [AllLocal]
  | cons s ss ih => rw [AllLocal, ih, List.forall_mem_cons]

lemma Machine.Guards.assignable (h : m.Guards R free names) {path : String}
    (hpath : Assignable path) (hv : v.Inside free m.store)
    (hrun : Template.assign path v m = .ok () m') :
    m.Stays m' R free names := by
  cases hpath with
  | own hname =>
    have hdot : '.' ∉ path.toList := notMem_of_isSchemaName hname.schema (by decide)
    have hsplit := splitLast_of_notMem hdot
    refine h.assign (fun _ => ?_) (fun hne => ?_) hv hrun
    · rw [hsplit]
      exact hname.ne_ctx
    · rw [hsplit] at hne
      exact absurd rfl hne
  | @child parent name hparent hname =>
    have hsplit : splitLast (Template.child parent name) = (parent, name) := splitLast_child hname
    refine h.assign (fun hempty => ?_) (fun _ => ?_) hv hrun
    · rw [hsplit] at hempty
      exact absurd hempty hparent.ne_empty
    · rw [hsplit]
      exact hparent

lemma execBranch_guarded {ss : List Stmt} (h : (execAll separator ss).Guarded R free names) :
    (execBranch separator ss).Guarded R free names := by
  by_cases hnothing : ∃ kind, ss = [.unlisted kind true]
  · obtain ⟨kind, rfl⟩ := hnothing
    intro m m' hm hrun
    rw [execBranch] at hrun
    cases hrun
    exact hm.stays
  · rw [execBranch_eq_execAll separator ss fun kind heq => hnothing ⟨kind, heq⟩]
    exact h

mutual

/-- **A local statement leaves the records and the noted names alone.** -/
theorem exec_local : ∀ s : Stmt, s.Local → (s.exec separator).Guarded R free names
  | .set (.ref path) value, h => by
    intro m m' hm hrun
    obtain ⟨hpath, hvalue⟩ := h
    rw [Stmt.exec, Expr.pathOf, Run.bind_ok (Run.pure_apply _)] at hrun
    obtain ⟨v, m₁, heval, hassign⟩ := of_bind_ok hrun
    rw [pathText, Run.bind_ok (Run.pure_apply _)] at hassign
    obtain ⟨hm₁, hv⟩ := hm.eval hvalue heval
    exact hm₁.trans (hm₁.guards.assignable hpath hv hassign)
  | .mapPut (.ref path) key value, h => by
    intro m m' hm hrun
    obtain ⟨hpath, hkey, hvalue⟩ := h
    rw [Stmt.exec, Expr.pathOf, Run.bind_ok (Run.pure_apply _), pathText,
      Run.bind_ok (Run.pure_apply _)] at hrun
    obtain ⟨a, m₀, hmap, hvalues⟩ := of_bind_ok hrun
    obtain ⟨rfl, ha⟩ := hm.mapAt hpath hmap
    obtain ⟨v, m₁, heval, hkeys⟩ := of_bind_ok hvalues
    obtain ⟨hm₁, hv⟩ := hm.eval hvalue heval
    obtain ⟨k, m₂, hevalKey, hput⟩ := of_bind_ok hkeys
    obtain ⟨hm₂, -⟩ := hm₁.guards.eval hkey hevalKey
    obtain ⟨k', m₃, hasKey, hlast⟩ := of_bind_ok hput
    obtain rfl := Run.asKey_ok hasKey
    exact (hm₁.trans hm₂).trans (hm₂.guards.putEntry ha (hv.grow hm₂.size_le) hlast)
  | .putAll (.ref path) value, h => by
    intro m m' hm hrun
    obtain ⟨hpath, hvalue⟩ := h
    rw [Stmt.exec, Expr.pathOf, Run.bind_ok (Run.pure_apply _), pathText,
      Run.bind_ok (Run.pure_apply _)] at hrun
    obtain ⟨a, m₀, hmap, hvalues⟩ := of_bind_ok hrun
    obtain ⟨rfl, ha⟩ := hm.mapAt hpath hmap
    obtain ⟨v, m₁, heval, hmerge⟩ := of_bind_ok hvalues
    obtain ⟨hm₁, hv⟩ := hm.eval hvalue heval
    split at hmerge
    · cases hmerge
      exact hm₁
    · exact hm₁.trans (hm₁.guards.merge ha hv hmerge)
  | .metadataPut name value, h => by
    intro m m' hm hrun
    obtain ⟨hname, hvalue⟩ := h
    rw [Stmt.exec] at hrun
    obtain ⟨⟨a, field⟩, m₀, hfound, hput⟩ := of_bind_ok hrun
    rw [hm.metadataField] at hfound
    cases hfield : RecordKind.metadata.field? name with
    | none =>
      rw [hfield] at hfound
      cases hfound
    | some f =>
      rw [hfield] at hfound
      cases hfound
      dsimp only at hput
      obtain ⟨v, m₁, heval, hlast⟩ := of_bind_ok hput
      obtain ⟨hm₁, -⟩ := hm.eval hvalue heval
      exact hm₁.trans (hm₁.guards.putField (fun heq => hname (heq ▸ hfield)) v hlast)
  | .choice condition body none, h => by
    intro m m' hm hrun
    obtain ⟨hcondition, hbody⟩ := h
    rw [Stmt.exec] at hrun
    obtain ⟨v, m₁, heval, hbranch⟩ := of_bind_ok hrun
    obtain ⟨hm₁, -⟩ := hm.eval hcondition heval
    split at hbranch
    · exact hm₁.trans (execBranch_guarded (execAll_local body hbody) _ _ hm₁.guards hbranch)
    · cases hbranch
      exact hm₁
  | .choice condition body (some otherwise), h => by
    intro m m' hm hrun
    obtain ⟨hcondition, hbody, hotherwise⟩ := h
    rw [Stmt.exec] at hrun
    obtain ⟨v, m₁, heval, hbranch⟩ := of_bind_ok hrun
    obtain ⟨hm₁, -⟩ := hm.eval hcondition heval
    split at hbranch
    · exact hm₁.trans (execBranch_guarded (execAll_local body hbody) _ _ hm₁.guards hbranch)
    · exact hm₁.trans
        (execBranch_guarded (execAll_local otherwise hotherwise) _ _ hm₁.guards hbranch)
  | .forEach name items body, h => by
    intro m m' hm hrun
    obtain ⟨hname, hitems, hbody⟩ := h
    rw [Stmt.exec] at hrun
    obtain ⟨v, m₁, heval, hloop⟩ := of_bind_ok hrun
    obtain ⟨hm₁, hv⟩ := hm.eval hitems heval
    obtain ⟨vs, m₂, hmembers, hlast⟩ := of_bind_ok hloop
    obtain ⟨rfl, hvs⟩ := hm₁.guards.loopMembers hv hmembers
    exact hm₁.trans (forMembers_guarded hname (execAll_local body hbody) hm₁.guards hvs hlast)
  | .error message none, _ | .error message (some _), _ => by
    intro m m' _ hrun
    rw [Stmt.exec] at hrun
    obtain ⟨v, m₁, -, htype⟩ := of_bind_ok hrun
    obtain ⟨w, m₂, -, hread⟩ := of_bind_ok htype
    obtain ⟨d, m₃, -, hread⟩ := of_bind_ok hread
    obtain ⟨e, m₄, -, hwritten⟩ := of_bind_ok hread
    obtain ⟨t, m₅, -, hthrow⟩ := of_bind_ok hwritten
    cases hthrow
  | .emit value, h => by
    intro m m' hm hrun
    rw [Stmt.exec] at hrun
    obtain ⟨v, m₁, heval, hset⟩ := of_bind_ok hrun
    obtain ⟨⟨hm₁, hsize⟩, -⟩ := hm.eval h heval
    cases hset
    exact ⟨hm₁.frame hm₁.sealed (.of_extends hm₁.sealed (.refl _)) rfl rfl hm₁.inner, hsize⟩
  | .block _ body, h | .compound body, h => by
    rw [Stmt.exec]
    exact execAll_local body h
  | .stray kind, _ | .unlisted kind _, _ => by
    intro m m' hm hrun
    rw [Stmt.exec] at hrun
    cases hrun

theorem execAll_local : ∀ ss : List Stmt, AllLocal ss →
    (execAll separator ss).Guarded R free names
  | [], _ => by
    intro m m' hm hrun
    rw [execAll] at hrun
    cases hrun
    exact hm.stays
  | s :: ss, h => by
    intro m m' hm hrun
    obtain ⟨hs, hss⟩ := h
    rw [execAll] at hrun
    obtain ⟨_, m₁, hfirst, hrest⟩ := of_bind_ok hrun
    have hm₁ := exec_local s hs _ _ hm hfirst
    exact hm₁.trans (execAll_local ss hss _ _ hm₁.guards hrest)

end

end TableKeys.Template
