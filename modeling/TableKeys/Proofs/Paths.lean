/-
# Paths into a request

What the paths of the key templates lead to while a machine holds a scene
(`Machine.Holds`): the arguments, the input, the default values, the name overrides and the
fields of a map. A field of a map leads to a value that shows what the map has under its name,
so texts that refer to fields become texts of the data (`Machine.Holds.componentReferences_eq`).
-/
import TableKeys.Proofs.Opening
import TableKeys.Proofs.Steps
import TableKeys.Snippet.Write

namespace TableKeys

/-- The data is null. -/
def Data.isNull : Data → Bool
  | .null => true
  | _ => false

namespace Template

open Snippet

/-- The machine holds the scene, the template knows its context, and nothing was put out. -/
structure Machine.Holds (m : Machine) (l : Layout) (sc : Scene) : Prop where
  store : l.Holds m.store sc
  context : m.context = .ref (l.cell .context)
  bound : m.bindings.get? "ctx" = some (.ref (l.cell .context))
  output : m.output = .null

namespace Machine

/-- **A request is held from the start.** -/
theorem start_holds (r : Request) : ∃ l, (start r).Holds l r.scene := by
  obtain ⟨l, hcontext, hstore⟩ := load_holds r.scene rfl r.scene_before {}
  rw [Request.scene_data] at hcontext hstore
  exact ⟨l, hstore, hcontext, congrArg some hcontext, rfl⟩

namespace Holds

variable {m m' : Machine} {l : Layout} {sc : Scene}

lemma extend (h : m.Holds l sc) (hm : m.Extends m') : m'.Holds l sc :=
  ⟨h.store.extend hm.store, hm.context.trans h.context, by rw [hm.bindings]; exact h.bound,
    hm.output.trans h.output⟩

lemma read_context (h : m.Holds l sc) : m.store.read m.context = sc.data := by
  rw [h.context]
  exact h.store.read_eq

/-! ## The maps of the request -/

lemma resolve_ctx (h : m.Holds l sc) :
    resolve m.store m.bindings "ctx" = .ok (.ref (l.cell .context)) := by
  rw [resolve_variable m.store m.bindings (by decide), h.bound]
  rfl

lemma resolve_arguments (h : m.Holds l sc) :
    resolve m.store m.bindings "ctx.args" = .ok (.ref (l.cell .arguments)) := by
  obtain ⟨_, hc, r, e, rfl, -⟩ := h.store.content .context trivial
  have hpath := resolve_child h.resolve_ctx (show isSchemaName "args" = true by decide)
  rw [Store.member_record hc] at hpath
  exact hpath

lemma resolve_stash (h : m.Holds l sc) :
    resolve m.store m.bindings "ctx.stash" = .ok (.ref (l.cell .stash)) := by
  obtain ⟨_, hc, r, e, rfl, -⟩ := h.store.content .context trivial
  have hpath := resolve_child h.resolve_ctx (show isSchemaName "stash" = true by decide)
  rw [Store.member_record hc] at hpath
  exact hpath

lemma resolve_defaults (h : m.Holds l sc) :
    resolve m.store m.bindings "ctx.stash.defaultValues" = .ok (l.value sc .defaults) := by
  obtain ⟨_, hc, rfl⟩ := h.store.content .stash trivial
  have hpath := resolve_child h.resolve_stash (show isSchemaName "defaultValues" = true by decide)
  rw [Store.member_record hc] at hpath
  exact hpath

lemma resolve_overrides (h : m.Holds l sc) :
    resolve m.store m.bindings ("ctx.stash.metadata." ++ nameOverridesName) =
      .ok (l.value sc .overrides) := by
  obtain ⟨_, hc, rfl⟩ := h.store.content .stash trivial
  obtain ⟨_, hc', k, q, rfl, -⟩ := h.store.content .metadata trivial
  have hpath := resolve_child h.resolve_stash (show isSchemaName "metadata" = true by decide)
  rw [Store.member_record hc] at hpath
  have hpath' := resolve_child hpath (show isSchemaName nameOverridesName = true by decide)
  exact hpath'.trans (congrArg Except.ok (Store.member_record hc' _))

lemma resolve_input (h : m.Holds l sc) (hinput : (sc.maps .input).isSome) :
    resolve m.store m.bindings inputPath = .ok (.ref (l.cell (.map .input))) := by
  obtain ⟨_, hc, us, ws, rfl, hus, -⟩ := h.store.content .arguments trivial
  have hbefore : us.get? (.text "input") = none := by
    have hno := h.store.before hinput
    rw [Entries.has, Option.isSome_eq_false_iff, Option.isNone_iff_eq_none] at hno
    have hrel := rowOf_get? hus (.text "input")
    rw [hno] at hrel
    cases hu : Entries.get? us (.text "input") with
    | none => rfl
    | some v =>
      rw [hu] at hrel
      cases hrel
  have hpath := resolve_child h.resolve_arguments (show isSchemaName "input" = true by decide)
  refine hpath.trans (congrArg Except.ok ?_)
  rw [Store.member_map hc, Entries.get?_append, hbefore, Layout.inputEntry, if_pos hinput]
  rfl

/-! ## Fields of maps -/

/-- A path to a value that shows a map, with a name, leads to what the map has under the name. -/
lemma resolve_field {path name : String} {v : Value} {es : Entries MapKey Data}
    (hpath : resolve m.store m.bindings path = .ok v)
    (hv : Shows m.store (fun _ => True) (.map es) v) (hname : isSchemaName name = true) :
    ∃ w, resolve m.store m.bindings (path ++ "." ++ name) = .ok w ∧
      Shows m.store (fun _ => True) ((es.get? (.text name)).getD .null) w := by
  refine ⟨_, resolve_child hpath hname, ?_⟩
  obtain ⟨a, ws, rfl, -, hc, row⟩ := shows_map.mp hv
  rw [Store.member_map hc]
  have hrel := rowOf_get? row (.text name)
  cases he : Entries.get? es (.text name) with
  | none =>
    cases hw : Entries.get? ws (.text name) with
    | none => exact shows_scalar.mpr rfl
    | some w =>
      rw [he, hw] at hrel
      cases hrel
  | some d =>
    cases hw : Entries.get? ws (.text name) with
    | none =>
      rw [he, hw] at hrel
      cases hrel
    | some w =>
      rw [he, hw] at hrel
      cases hrel with
      | some hd => exact hd

/-- A value shows null only if it is null. -/
lemma isNull_of_shows {s : Store} {free : Address → Prop} {d : Data} {v : Value}
    (h : Shows s free d v) : v.isNull = d.isNull := by
  refine Shows.induction (motive := fun d v => v.isNull = d.isNull) (fun a => ?_)
    (fun _ _ _ => rfl) (fun _ _ _ _ _ _ => rfl) (fun _ _ _ _ _ _ _ => rfl) (fun _ _ _ _ => rfl) h
  cases a <;> rfl

end Holds

end Machine

end Template

end TableKeys
