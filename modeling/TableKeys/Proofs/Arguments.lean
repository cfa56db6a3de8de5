/-
# Arguments of a query

A template for a query finds its arguments along paths. In a machine that goes on from one that
holds a scene, a path leads to a value that shows some data of the scene (`Scene.Leads`); one step
further it leads to the member of the data or, where the step has an index, to an item of that
member. So what is asked about arguments is asked about data.
-/
import TableKeys.Proofs.Accepted
import TableKeys.Proofs.Continued
import TableKeys.Snippet.Query

namespace TableKeys

open Text

/-! ## The argument for the sort key -/

lemma isNameStart_toLower {c : Char} (h : isNameStart c = true) :
    isNameStart c.toLower = true :=
  forall_ascii (P := fun c => isNameStart c = true → isNameStart c.toLower = true)
    (by decide) (toNat_lt_of_isSchemaChar (isSchemaChar_of_isNameStart h)) h

lemma schemaName_of_isSchemaName {s : String} (h : isSchemaName s = true) : schemaName s = s := by
  rw [schemaName, List.filter_eq_self.mpr fun c hc => isSchemaChar_of_mem h hc,
    String.ofList_toList]

/-- The query argument for several fields of a schema is named as in a schema. -/
lemma isSchemaName_compositeArgument {fields : List String} (hne : fields ≠ [])
    (h : ∀ f ∈ fields, isSchemaName f = true) : isSchemaName (compositeArgument fields) = true := by
  obtain ⟨f, fs, rfl⟩ := List.exists_cons_of_ne_nil hne
  have hf := h f (by simp)
  obtain ⟨c, cs, hcs, hstart, -⟩ := isSchemaName_iff.mp hf
  have hnonempty : f ≠ "" := by
    rintro rfl
    cases hcs
  obtain ⟨rest, hrest⟩ : ∃ rest, compositeArgument (f :: fs) = uncapitalize f ++ rest := by
    rw [compositeArgument, List.map_cons, schemaName_of_isSchemaName hf,
      List.filter_cons_of_pos (by simpa using hnonempty)]
    exact ⟨_, rfl⟩
  have hlist : (compositeArgument (f :: fs)).toList = c.toLower :: (cs ++ rest.toList) := by
    rw [hrest, String.toList_append, uncapitalize, hcs]
    simp
  have hchars := compositeArgument_schemaChars (f :: fs)
  rw [hlist] at hchars
  exact isSchemaName_iff.mpr ⟨_, _, hlist, isNameStart_toLower hstart,
    fun d hd => hchars d (by simp [hd])⟩

lemma KeyDecl.Plain.sortArgument {k : KeyDecl} {o : Options} (hk : k.Plain o) {argument : String}
    (h : k.sortArgument? = some argument) : isSchemaName argument = true := by
  have hnames := hk.sortFields
  unfold sortArgument? at h
  split at h
  · cases h
  · rename_i field hfields
    obtain rfl := Option.some.inj h
    exact hnames field (by simp [hfields])
  · rename_i hnil _
    obtain rfl := Option.some.inj h
    exact isSchemaName_compositeArgument (by simpa using hnil) hnames

lemma KeyDecl.Plain.sortName {k : KeyDecl} {o : Options} (hk : k.Plain o) {name : String}
    (h : k.sortName? o = some name) : '$' ∉ name.toList := by
  unfold sortName? at h
  split at h
  · cases h
  · rename_i field hfields
    obtain rfl := Option.some.inj h
    exact notMem_of_isSchemaName (hk.sortFields field (by simp [hfields])) (by decide)
  · obtain rfl := Option.some.inj h
    exact hk.compositeName

namespace Template

open Snippet

/-! ## Data in cells -/

/-- A value that shows data has members that show the members of the data. -/
lemma Shows.member {s : Store} {free : Address → Prop} {d : Data} {v : Value}
    (h : Shows s free d v) (name : String) : Shows s free (d.member name) (s.member v name) := by
  have hnull : Shows s free .null .null := shows_scalar.mpr rfl
  have hrel : ∀ {d? : Option Data} {v? : Option Value}, Option.Rel (Shows s free) d? v? →
      Shows s free (d?.getD .null) (v?.getD .null) := by
    rintro _ _ (hdv | _)
    · exact hdv
    · exact hnull
  refine Shows.induction (motive := fun d v => Shows s free (d.member name) (s.member v name))
    (fun _ => hnull) (fun _ _ _ => hnull) ?map ?record (fun _ _ _ _ => hnull) h
  case map =>
    intro es vs a _ cell row
    rw [Store.member_map cell]
    exact hrel (rowOf_get? (row.imp fun _ _ h => ⟨h.1, h.2.1⟩) _)
  case record =>
    intro kind fs vs a _ cell row
    rw [Store.member_record cell, Data.member]
    cases kind.field? name with
    | none => exact hnull
    | some field => exact hrel (rowOf_get? (row.imp fun _ _ h => ⟨h.1, h.2.1⟩) field)

/-- A value that shows data has items that show the items of the data. -/
lemma Shows.item {s : Store} {free : Address → Prop} {d : Data} {v : Value}
    (h : Shows s free d v) (i : Nat) : Shows s free (d.item i) (v.item i) := by
  have hnull : Shows s free .null .null := shows_scalar.mpr rfl
  refine Shows.induction (motive := fun d v => Shows s free (d.item i) (v.item i))
    (fun _ => hnull) (fun ds vs items => ?_) (fun _ _ _ _ _ _ => hnull)
    (fun _ _ _ _ _ _ _ => hnull) (fun _ _ _ _ => hnull) h
  rw [Data.item, Value.item, List.getD_eq_getElem?_getD, List.getD_eq_getElem?_getD]
  have hitems : List.Forall₂ (Shows s free) ds vs := items.imp fun _ _ h => h.1
  clear items
  induction hitems generalizing i with
  | nil => exact hnull
  | cons head _ ih =>
    cases i with
    | zero => exact head
    | succ i => exact ih i

/-! ## Paths -/

/-- In whatever machine goes on from one that holds the scene, the path leads to a value that
shows the data in the cells that were there. -/
def Scene.Leads (sc : Scene) (path : String) (d : Data) : Prop :=
  ∀ (m₀ m : Machine) (l : Layout), m₀.Holds l sc → m₀.Continues m → ∃ v,
    resolve m.store m.bindings path = .ok v ∧ Shows m.store (fun a => ¬ m₀.store.New a) d v

namespace Scene

variable {sc : Scene} {path : String} {d : Data}

lemma leads_ctx (sc : Scene) : sc.Leads "ctx" sc.data :=
  fun _ _ _ h hm => ⟨_, (h.continue hm).resolve_ctx,
    h.store.shows_context.extend hm.store fun _ _ hlt => Nat.not_le.mpr hlt⟩

lemma Leads.member (h : sc.Leads path d) {name : String} (hname : isSchemaName name = true) :
    sc.Leads (child path name) (d.member name) := by
  intro m₀ m l h₀ hm
  obtain ⟨v, hv, hshows⟩ := h m₀ m l h₀ hm
  exact ⟨_, resolve_child hv hname, hshows.member name⟩

/-- A step with an index leads to an item. -/
lemma Leads.item (h : sc.Leads path d) {name step : String} {i : Nat} (hdot : '.' ∉ step.toList)
    (hstep : Segment.ofChars step.toList = .ok { name, index := some i }) :
    sc.Leads (child path step) ((d.member name).item i) := by
  intro m₀ m l h₀ hm
  obtain ⟨v, hv, hshows⟩ := h m₀ m l h₀ hm
  exact ⟨_, resolve_step hv hdot hstep, (hshows.member name).item i⟩

lemma leads_args (sc : Scene) : sc.Leads "ctx.args" (.map sc.arguments) :=
  sc.leads_ctx.member (show isSchemaName "args" = true by decide)

lemma leads_argument (sc : Scene) {name : String} (hname : isSchemaName name = true) :
    sc.Leads ("ctx.args." ++ name) (sc.arguments.field name) := by
  have h := sc.leads_args.member hname
  rwa [child, show "ctx.args" ++ "." = "ctx.args." from rfl] at h

end Scene

section Tests

variable {separator : String} {m₀ m : Machine} {l : Layout} {sc : Scene} {path : String}
  {d : Data}

/-- Of two tests, the second is looked at if the first one holds. -/
lemma eval_and {a b : Expr} {x y : Bool} (ha : a.eval separator m = .ok (.bool x) m)
    (hb : x = true → b.eval separator m = .ok (.bool y) m) :
    (Expr.and [a, b]).eval separator m = .ok (.bool (x && y)) m := by
  have hand : evalAnd separator [a, b] m = .ok (x && y) m := by
    rw [evalAnd, Run.bind_ok ha]
    cases x with
    | false => rfl
    | true =>
      rw [if_pos (show (Value.bool true).holds = true from rfl), evalAnd, Run.bind_ok (hb rfl)]
      cases y <;> rfl
  rw [Expr.eval, Run.bind_ok hand]
  rfl

namespace Machine.Holds

lemma eval_leads (separator : String) (h : m₀.Holds l sc) (hm : m₀.Continues m)
    (hpath : sc.Leads path d) : ∃ v, (Expr.ref path).eval separator m = .ok v m ∧
      Shows m.store (fun a => ¬ m₀.store.New a) d v := by
  obtain ⟨v, hv, hshows⟩ := hpath m₀ m l h hm
  exact ⟨v, eval_ref hv, hshows⟩

lemma eval_present (separator : String) (h : m₀.Holds l sc) (hm : m₀.Continues m)
    (hpath : sc.Leads path d) :
    (present (.ref path)).eval separator m = .ok (.bool !d.isNull) m := by
  obtain ⟨v, hv, hshows⟩ := h.eval_leads separator hm hpath
  have hnull : (Expr.isNull (.ref path)).eval separator m = .ok (.bool d.isNull) m := by
    rw [Expr.eval, Run.bind_ok hv, isNull_of_shows hshows]
    rfl
  rw [present, Expr.eval, Run.bind_ok hnull]
  cases d.isNull <;> rfl

/-- An operator of an argument is used if it has an operand. -/
lemma eval_operatorUsed (separator : String) (h : m₀.Holds l sc) (hm : m₀.Continues m)
    (hpath : sc.Leads path d) {operator : String} (hoperator : isSchemaName operator = true) :
    (operatorUsed path operator).eval separator m =
      .ok (.bool !(d.member operator).isNull) m := by
  have hnull : (!d.isNull && !(d.member operator).isNull) = !(d.member operator).isNull := by
    cases d with
    | scalar a => exact Bool.and_false _
    | _ => rfl
  rw [operatorUsed, eval_and (h.eval_present separator hm hpath) fun _ =>
    h.eval_present separator hm (hpath.member hoperator), hnull]

end Machine.Holds

end Tests

end Template

end TableKeys
