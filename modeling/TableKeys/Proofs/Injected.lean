/-
# Templates as they are injected

A template that carries snippets is run on a request: if its statements lead from the scene of
the request to another scene, the evaluation leaves that scene as the context
(`evaluate_injected`). What stands in the context is found under names (`Data.follow`).
-/
import TableKeys.Proofs.Writes
import TableKeys.Transform

namespace TableKeys

/-- What stands in data under a name: the entry of a map or the field of a record; null if there
is nothing. -/
def Data.member : Data → String → Data
  | .map es, name => Entries.field es name
  | .record kind fields, name =>
    ((kind.field? name).bind (Entries.get? fields)).getD .null
  | _, _ => .null

/-- The item of a list at a position; null if there is none. -/
def Data.item : Data → Nat → Data
  | .list ds, i => ds.getD i .null
  | _, _ => .null

lemma Data.member_object (es : Entries String Data) (name : String) :
    (Data.object es).member name = (es.get? name).getD .null :=
  congrArg (Option.getD · Data.null) (Entries.get?_texts es name)

/-- What stands in data under one name after the other. -/
def Data.follow (d : Data) (names : List String) : Data :=
  names.foldl Data.member d

/-- The template that carries snippets, as it stands in a slot of a resolver. -/
def Resolver.injected (r : Resolver) (slot : String) (snippets : List (Option Template.Stmt)) :
    Template.MappingTemplate :=
  r.placed slot (r.snippetTemplate (snippets.map fun s => s.map Template.Node.stmt))

namespace Template

open Snippet

/-! ## Running templates -/

section Running

variable {separator : String} {m : Machine} {sc : Scene} {Q : Machine → Prop}

/-- The state in which the statements of a template start. -/
def Machine.opened (m : Machine) (name : String) : Machine :=
  { m.restart with log := m.restart.log ++ [.evaluating name] }

lemma Machine.Stages.opened (h : m.Stages sc) (name : String) : (m.opened name).Stages sc := by
  obtain ⟨l, hl⟩ := h
  exact ⟨l, hl.store, hl.context, congrArg some hl.context, rfl⟩

lemma run_reaches {t : MappingTemplate}
    (h : (execAll separator (t.stages.map Node.asStmt)).Reaches (m.opened t.name) Q) :
    ∃ m', t.run separator m = .ok m'.output m' ∧ Q m' := by
  obtain ⟨m', hexec, hm'⟩ := h
  refine ⟨m', ?_, hm'⟩
  have hwithin : Run.within (some t.name) (execAll separator (t.stages.map Node.asStmt))
      (m.opened t.name) = .ok () m' := by
    rw [Run.within, hexec]
  rw [MappingTemplate.run]
  show EStateM.bind _ _ _ = _
  exact Run.bind_ok (x := Run.within _ _) (m := m.opened t.name) hwithin

lemma run_error {t : MappingTemplate} {e : Failure} {m' : Machine}
    (h : execAll separator (t.stages.map Node.asStmt) (m.opened t.name) = .error e m') :
    t.run separator m = .error (e.within (some t.name)) m' := by
  have hwithin : Run.within (some t.name) (execAll separator (t.stages.map Node.asStmt))
      (m.opened t.name) = .error (e.within (some t.name)) m' := by
    rw [Run.within, h]
  rw [MappingTemplate.run]
  exact Run.bind_error (x := Run.within _ _) (m := m.opened t.name) hwithin

lemma stages_injected (r : Resolver) (slot : String) (snippets : List (Option Stmt)) :
    (r.injected slot snippets).stages.map Node.asStmt = snippets.filterMap id := by
  show ((snippets.map fun s => s.map Node.stmt).filterMap id).map Node.asStmt = _
  induction snippets with
  | nil => rfl
  | cons s ss ih => cases s <;> simpa [Node.asStmt] using ih

end Running

/-! ## Evaluating requests -/

lemma evaluate_stages {request : Request} {run : Run Value} {v : Value} {m : Machine} {sc : Scene}
    (h : run (Machine.start request) = .ok v m) (hm : m.Stages sc) :
    (evaluate request run).result = .ok (m.store.read v) ∧
      (evaluate request run).context = sc.data := by
  obtain ⟨l, hl⟩ := hm
  rw [evaluate, h]
  exact ⟨rfl, hl.read_context⟩

lemma Machine.start_stages (request : Request) : (Machine.start request).Stages request.scene :=
  Machine.start_holds request

/-- **A template that carries snippets leaves the scene to which its statements lead.** -/
theorem evaluate_injected (r : Resolver) (slot : String) (snippets : List (Option Stmt))
    {separator : String} {request : Request} {sc : Scene}
    (h : ∀ m : Machine, m.Stages request.scene →
      (execAll separator (snippets.filterMap id)).Reaches m fun m' => m'.Stages sc) :
    (evaluate request ((r.injected slot snippets).run separator)).result = .ok .null ∧
      (evaluate request ((r.injected slot snippets).run separator)).context = sc.data := by
  have hopened := (Machine.start_stages request).opened (r.injected slot snippets).name
  have hexec := h _ hopened
  rw [← stages_injected r slot] at hexec
  obtain ⟨m', hrun, hm'⟩ := run_reaches hexec
  obtain ⟨hresult, hcontext⟩ := evaluate_stages hrun hm'
  obtain ⟨l, hl⟩ := hm'
  rw [hl.output] at hresult
  exact ⟨hresult, hcontext⟩

/-- A template whose statements fail leaves their failure. -/
lemma evaluate_injected_error (r : Resolver) (slot : String) (snippets : List (Option Stmt))
    {separator : String} {request : Request} {E : Failure → Prop}
    (h : ∀ m : Machine, m.Stages request.scene →
      ∃ e m', execAll separator (snippets.filterMap id) m = .error e m' ∧ E e) :
    ∃ e name, (evaluate request ((r.injected slot snippets).run separator)).result =
      .error (e.within (some name)) ∧ E e := by
  have hopened := (Machine.start_stages request).opened (r.injected slot snippets).name
  obtain ⟨e, m', hexec, he⟩ := h _ hopened
  rw [← stages_injected r slot] at hexec
  refine ⟨e, (r.injected slot snippets).name, ?_, he⟩
  rw [evaluate, run_error hexec]

lemma evaluate_injected_ne_ok (r : Resolver) (slot : String) (snippets : List (Option Stmt))
    {separator : String} {request : Request}
    (h : ∀ m : Machine, m.Stages request.scene →
      ∃ e m', execAll separator (snippets.filterMap id) m = .error e m') (v : Data) :
    (evaluate request ((r.injected slot snippets).run separator)).result ≠ .ok v := by
  have htrivial : ∀ m : Machine, m.Stages request.scene →
      ∃ e m', execAll separator (snippets.filterMap id) m = .error e m' ∧ True := by
    intro m hm
    obtain ⟨e, m', hexec⟩ := h m hm
    exact ⟨e, m', hexec, trivial⟩
  obtain ⟨e, name, herror, -⟩ := evaluate_injected_error r slot snippets htrivial
  rw [herror]
  exact fun hok => by cases hok

/-! ## Slots -/

lemma runSlot_ok {r : Resolver} {slot separator : String} {m m' : Machine}
    (h : MappingTemplate.runAll separator (r.slot slot) m = .ok () m') :
    r.runSlot separator slot m = .ok .null m' := by
  rw [Resolver.runSlot, Run.bind_ok h]
  rfl

lemma evaluate_runSlot {r : Resolver} {slot separator : String} {request : Request} {m : Machine}
    {sc : Scene}
    (h : MappingTemplate.runAll separator (r.slot slot) (Machine.start request) = .ok () m)
    (hm : m.Stages sc) :
    (evaluate request (r.runSlot separator slot)).result = .ok .null ∧
      (evaluate request (r.runSlot separator slot)).context = sc.data :=
  evaluate_stages (runSlot_ok h) hm

lemma evaluate_runSlot_error {r : Resolver} {slot separator : String} {request : Request}
    {e : Failure} {m : Machine}
    (h : MappingTemplate.runAll separator (r.slot slot) (Machine.start request) = .error e m) :
    (evaluate request (r.runSlot separator slot)).result = .error e := by
  have hrun : r.runSlot separator slot (Machine.start request) = .error e m := by
    rw [Resolver.runSlot, Run.bind_error h]
  rw [evaluate, hrun]

/-! ## What is found in the context -/

lemma follow_modelObjectKey (sc : Scene) :
    sc.data.follow ["stash", "metadata", "modelObjectKey"] = sc.key := rfl

lemma follow_input {sc : Scene} {inp : Entries MapKey Data} (hinp : sc.maps .input = some inp)
    (hbefore : sc.before.has (.text "input") = false) :
    sc.data.follow ["args", "input"] = .map inp := by
  show (sc.arguments.field "input") = .map inp
  rw [Entries.has, Option.isSome_eq_false_iff, Option.isNone_iff_eq_none] at hbefore
  rw [Entries.field, Scene.arguments, Entries.get?_append, hbefore, Scene.inputEntry, hinp]
  rfl

end Template

end TableKeys
