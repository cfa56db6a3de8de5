/-
# Machines that go on

A run that builds something of its own puts it into new cells, gives it a variable and changes it
there. The cells that it found stay as they are (`Machine.Continues`), so what was held at the
start is held all the time, while new cells and other variables may change freely.
-/
import TableKeys.Proofs.Writes

namespace TableKeys.Template

variable {separator : String} {m₀ m m' m'' : Machine}

/-- A cell that came later may change. -/
lemma Store.Extends.set {s₀ s : Store} {a : Address} (h : s₀.Extends s) (ha : s₀.New a) (c : Cell) :
    s₀.Extends (s.set a c) where
  size_le := by simpa [Store.set] using h.size_le
  get?_eq b hb := by
    have hne : a ≠ b := (Nat.ne_of_lt (hb.trans_le ha)).symm
    rw [Store.get?_set_of_ne hne, h.get?_eq b hb]

/-- The cells that were there are as they were, and the template knows the same context; there may
be new cells and other variables. -/
structure Machine.Continues (m₀ m : Machine) : Prop where
  store : m₀.store.Extends m.store
  context : m.context = m₀.context
  bound : m.bindings.get? "ctx" = m₀.bindings.get? "ctx"
  output : m.output = m₀.output

/-- The machine with another map in a cell. -/
def Machine.setMap (m : Machine) (a : Address) (es : Entries MapKey Value) : Machine :=
  { m with store := m.store.set a (.map es) }

/-- A variable may get another value, and something may be logged. -/
structure Machine.Rebinds (m : Machine) (name : String) (m' : Machine) : Prop where
  store : m'.store = m.store
  context : m'.context = m.context
  others : ∀ other, other ≠ name → m'.bindings.get? other = m.bindings.get? other
  output : m'.output = m.output

namespace Machine.Rebinds

variable {name : String}

lemma refl (m : Machine) (name : String) : m.Rebinds name m :=
  ⟨rfl, rfl, fun _ _ => rfl, rfl⟩

lemma trans (h : m.Rebinds name m') (h' : m'.Rebinds name m'') : m.Rebinds name m'' :=
  ⟨h'.store.trans h.store, h'.context.trans h.context,
    fun other hother => (h'.others other hother).trans (h.others other hother),
    h'.output.trans h.output⟩

lemma put (m : Machine) (name : String) (v : Value) (log : List Event) :
    m.Rebinds name { m with bindings := m.bindings.put name v, log := log } :=
  ⟨rfl, rfl, fun _ hother => Entries.get?_put_of_ne _ _ (by simpa using hother.symm), rfl⟩

end Machine.Rebinds

namespace Machine.Continues

lemma refl (m : Machine) : m.Continues m :=
  ⟨.refl _, rfl, rfl, rfl⟩

lemma trans (h : m.Continues m') (h' : m'.Continues m'') : m.Continues m'' :=
  ⟨h.store.trans h'.store, h'.context.trans h.context, h'.bound.trans h.bound,
    h'.output.trans h.output⟩

lemma extend (h : m₀.Continues m) (hm : m.Extends m') : m₀.Continues m' :=
  h.trans ⟨hm.store, hm.context, by rw [hm.bindings], hm.output⟩

lemma rebind {name : String} (h : m₀.Continues m) (hm : m.Rebinds name m') (hname : name ≠ "ctx") :
    m₀.Continues m' :=
  h.trans ⟨by rw [hm.store]; exact .refl _, hm.context, hm.others _ hname.symm, hm.output⟩

lemma setMap {a : Address} (h : m₀.Continues m) (ha : m₀.store.New a)
    (es : Entries MapKey Value) : m₀.Continues (m.setMap a es) :=
  ⟨h.store.set ha _, h.context, h.bound, h.output⟩

end Machine.Continues

/-- **What was held at the start is held all the time.** -/
theorem Machine.Holds.continue {l : Layout} {sc : Scene} (h : m₀.Holds l sc)
    (hm : m₀.Continues m) : m.Holds l sc :=
  ⟨h.store.extend hm.store, hm.context.trans h.context, hm.bound.trans h.bound,
    hm.output.trans h.output⟩

/-! ## Maps that a variable names -/

/-- An assignment into a map is a put. -/
lemma exec_set_child {path key : String} {value : Expr} {a : Address} {es : Entries MapKey Value}
    {v : Value} (hpath : resolve m'.store m'.bindings path = .ok (.ref a)) (hne : path ≠ "")
    (hc : m'.store.get? a = some (.map es)) (hv : value.eval separator m = .ok v m')
    (hkey : '.' ∉ key.toList) :
    (Stmt.set (.ref (child path key)) value).exec separator m =
      .ok () (m'.setMap a (es.put (.text key) v)) := by
  have hassign : assign (child path key) v m' = .ok () (m'.setMap a (es.put (.text key) v)) := by
    have hparent : path.isEmpty = false := by simpa using hne
    have hentries : m'.store.entries? (.ref a) = some es := by rw [Store.entries?, hc]
    rw [assign, child, splitLast_child hkey]
    simp only [hparent, Bool.false_eq_true, if_false]
    rw [Run.bind_ok (resolve_ok hpath), Run.get_bind, hentries]
    exact putEntry_apply hc _ _
  rw [Stmt.exec, Expr.pathOf, Run.bind_ok (Run.pure_apply _), Run.bind_ok hv, pathText,
    Run.bind_ok (Run.pure_apply _), hassign]

end TableKeys.Template
