/-
# Templates that answer

A template may raise an error of its own, and it may fail because a value does not fit its place.
The templates that declarations bring never do the latter on requests with accepted data
(`Request.Regular`): each of them goes well or raises what one of its error statements says
(`transform_answers`).

The data must be accepted. A map with a key that JSON does not have enters no text, and a
percent sign inside square brackets spoils the layout of a filter; there a template of a
declared key fails with a fault (`answers_unless_regular`).
-/
import TableKeys.Proofs.Filters
import TableKeys.Proofs.IndexRequests
import TableKeys.Proofs.KeyFits
import TableKeys.Proofs.Raised
import TableKeys.Proofs.Settled

namespace TableKeys

open Template Snippet Session

/-! ## Effects on accepted data -/

/-- The computation goes well or raises an error. -/
def Failure.Answers {α : Type} (x : Except Failure α) : Prop :=
  (∃ a, x = .ok a) ∨ ∃ message type, x = .error (.raised message type)

section Accepted

variable {es : Entries MapKey Data} {sc : Scene}

lemma exists_shownComposite (o : Options) (path : String) (h : ∀ e ∈ es, e.2.Accepted)
    (fields : List String) : ∃ t, shownComposite o path es fields = .ok t := by
  have hcomponents : ∀ f ∈ fields, ∃ t, shownComponent path es f = .ok t := by
    intro f _
    unfold shownComponent
    split
    · exact ⟨_, rfl⟩
    · exact (Data.Accepted.field h f).interpolated
  obtain ⟨texts, htexts⟩ := exists_mapM_ok hcomponents
  exact ⟨_, by rw [shownComposite, htexts]; rfl⟩

/-- Items with accepted fields have a key. -/
lemma exists_itemKey (k : KeyDecl) (o : Options) (path : String) (h : ∀ e ∈ es, e.2.Accepted) :
    ∃ key, itemKey k o path es = .ok key := by
  obtain ⟨a, ha⟩ := (Data.Accepted.field h k.partition.name).stored
  obtain ⟨sort, hsort⟩ : ∃ sort, storedSort k o path es = .ok sort := by
    unfold storedSort
    split
    · exact ⟨[], rfl⟩
    · rename_i field _
      obtain ⟨b, hb⟩ := (Data.Accepted.field h field).stored
      exact ⟨_, by rw [hb]; rfl⟩
    · obtain ⟨t, ht⟩ := exists_shownComposite o path h k.sortFields
      exact ⟨_, by rw [ht]; rfl⟩
  exact ⟨_, by rw [itemKey, ha]; simp only [bind, Except.bind, hsort]; rfl⟩

namespace Duty

lemma exists_keyEffect (k : KeyDecl) (o : Options) (path : String)
    (h : ∀ e ∈ es, e.2.Accepted) : ∃ x, keyEffect k o path es = .ok x := by
  obtain ⟨key, hkey⟩ := exists_itemKey k o path h
  exact ⟨_, by rw [keyEffect, hkey]; rfl⟩

lemma exists_upkeepEffect (k : KeyDecl) (o : Options) (h : ∀ e ∈ es, e.2.Accepted) :
    ∃ x, upkeepEffect k o es = .ok x := by
  obtain ⟨t, ht⟩ := exists_shownComposite o mergedValues h k.sortFields
  exact ⟨_, by rw [upkeepEffect, ht]; rfl⟩

/-- **On accepted data a template has its effect or raises an error.** -/
theorem effect_answers (o : Options) (w : Duty) (harguments : ∀ e ∈ sc.arguments, e.2.Accepted)
    (hoverlay : ∀ e ∈ sc.overlay, e.2.Accepted) : Failure.Answers (w.effect o sc) := by
  cases w with
  | read k => exact .inl (exists_keyEffect k o _ harguments)
  | write k =>
    obtain ⟨made, hmade⟩ := exists_keyEffect k o mergedValues hoverlay
    obtain ⟨kept, hkept⟩ : ∃ kept,
        (if k.isComposite then upkeepEffect k o sc.overlay else .ok {}) = .ok kept := by
      split
      · exact exists_upkeepEffect k o hoverlay
      · exact ⟨{}, rfl⟩
    exact .inl ⟨_, by rw [effect, hmade]; simp only [bind, Except.bind, hkept]; rfl⟩
  | delete k => exact .inl (exists_keyEffect k o _ hoverlay)
  | keep i mutation =>
    rw [effect]
    split
    · exact .inr ⟨_, _, rfl⟩
    · split
      · exact .inl (exists_upkeepEffect i.toKeyDecl o hoverlay)
      · exact .inl ⟨_, rfl⟩
  | keepDeleted i => exact .inl (exists_upkeepEffect i.toKeyDecl o hoverlay)

end Duty

end Accepted

/-! ## Runs that answer -/

namespace Template

/-- The run goes well or raises an error. -/
def Run.Answers (x : Run Unit) (m : Machine) : Prop :=
  (∃ m', x m = .ok () m') ∨ ∃ message type m', x m = .error (.raised message type) m'

/-- The template goes well on the request, or it raises what one of its error statements says. -/
def MappingTemplate.Answers (t : MappingTemplate) (separator : String) (request : Request) :
    Prop :=
  (∃ d, (evaluate request (t.run separator)).result = .ok d) ∨
    ∃ message type, (evaluate request (t.run separator)).result = .error (.raised message type) ∧
      RaisedBy separator t.errors message type

section Running

variable {x : Run Unit} {m : Machine} {sc : Scene} {separator : String} {request : Request}
  {t : MappingTemplate}

lemma Run.Reaches.answers {Q : Machine → Prop} (h : x.Reaches m Q) : x.Answers m := by
  obtain ⟨m', hx, -⟩ := h
  exact .inl ⟨m', hx⟩

lemma Run.Does.answers {r : Except Failure Effect} (h : x.Does m sc r) (hr : Failure.Answers r) :
    x.Answers m := by
  obtain ⟨y, rfl⟩ | ⟨message, type, rfl⟩ := hr
  · exact Run.Reaches.answers h
  · exact .inr ⟨message, type, h⟩

/-- A template answers a request if its statements answer the scene of the request. -/
lemma MappingTemplate.Answers.of_stages
    (h : ∀ m : Machine, m.Stages request.scene →
      (execAll separator (t.stages.map Node.asStmt)).Answers m) :
    t.Answers separator request := by
  obtain ⟨m', hexec⟩ | ⟨message, type, m', hexec⟩ :=
    h _ ((Machine.start_stages request).opened t.name)
  · obtain ⟨m₁, hrun, -⟩ := run_reaches (Q := fun _ => True) ⟨m', hexec, trivial⟩
    exact .inl ⟨_, by rw [evaluate, hrun]⟩
  · have hrun := run_error hexec
    exact .inr ⟨message, type, by rw [evaluate, hrun]; rfl, t.run_raises separator _ _ _ _ hrun⟩

end Running

end Template

/-! ## Regular requests -/

/-- Arguments and default values of the request are accepted data, and its filter is one that the
input type of filters has. -/
structure Request.Regular (request : Request) : Prop where
  arguments : ∀ e ∈ request.arguments, e.2.Accepted
  defaults : ∀ es, request.defaultValues = some es → ∀ e ∈ es, e.2.Accepted
  filter : ((Data.object request.arguments).member "filter").holds = true →
    Filter.IsFilter ((Data.object request.arguments).member "filter")

namespace Request.Regular

variable {request : Request}

lemma scene_arguments (h : request.Regular) : ∀ e ∈ request.scene.arguments, e.2.Accepted := by
  rw [Request.scene_arguments]
  exact Data.Accepted.texts h.arguments

lemma accepted (h : request.Regular) : (Data.map request.scene.arguments).Accepted := by
  rw [Request.scene_arguments]
  exact .object h.arguments

lemma scene_overlay (h : request.Regular) : ∀ e ∈ request.scene.overlay, e.2.Accepted := by
  rw [Scene.overlay_scene, Request.merged]
  refine Entries.forall_mem_putAll ?_ ?_
  · cases hdefaults : request.defaultValues with
    | none => simp
    | some es => exact Data.Accepted.texts (h.defaults es hdefaults)
  · cases hinput : request.input? with
    | none => simp
    | some input =>
      obtain ⟨d, hd, hentries⟩ := Option.bind_eq_some_iff.mp hinput
      have haccepted : d.Accepted := by
        have hget := Data.Accepted.of_get? (Data.Accepted.texts h.arguments) (.text "input")
        rwa [hd] at hget
      cases haccepted with
      | scalar _ | list _ => cases hentries
      | map _ hes =>
        obtain rfl := Option.some.inj hentries
        exact hes

end Request.Regular

/-! ## Templates of declarations -/

section Declarations

variable {schema : Schema} {o : Options} {ks : List KeyDecl} {is : List IndexDecl}
  {place : String × String} {request : Request} {separator : String} {m : Machine} {k : KeyDecl}
  {i : IndexDecl}

/-- The place belongs to a mutation of a type with a declared key. -/
def Schema.Mutates (schema : Schema) (keys : List KeyDecl) (place : String × String) : Prop :=
  ∃ k ∈ keys, ∃ op ∈ [Operation.create, .update, .delete], schema.placeOf k.object op = some place

lemma answers_duty (separator : String) {w : Duty} (hm : m.Stages request.scene)
    (hw : w.Valid o) (hinput : request.input?.isSome) (h : request.Regular) :
    (execAll separator (w.body o)).Answers m := by
  obtain ⟨input, hinput⟩ := Option.isSome_iff_exists.mp hinput
  have hanswers := w.effect_answers o h.scene_arguments h.scene_overlay
  refine (w.does separator hm hinput hw fun f hf => ?_).answers hanswers
  -- there is no fault, so it does not matter whether synthetic attributes stand apart
  obtain ⟨x, hok⟩ | ⟨message, type, hraised⟩ := hanswers
  · cases hok.symm.trans hf
  · cases hraised.symm.trans hf

lemma answers_read (separator : String) (hm : m.Stages request.scene) (hk : k.Plain o)
    (h : request.Regular) :
    (execAll separator ((primarySnippets k o .get).filterMap id)).Answers m := by
  obtain ⟨x, hx⟩ := Duty.exists_keyEffect k o (keyPath false) h.scene_arguments
  refine (Duty.does_read separator hm hk.legible fun f hf => ?_).answers (.inl ⟨x, hx⟩)
  cases hx.symm.trans hf

lemma answers_list (separator : String) (hm : m.Stages request.scene) (hk : k.Plain o)
    (h : request.Regular) :
    (execAll separator ((primarySnippets k o .list).filterMap id)).Answers m := by
  have hlist : execAll separator ((primarySnippets k o .list).filterMap id) m =
      (listQuery k o).exec separator m := execAll_singleton _
  unfold Run.Answers
  rw [hlist]
  cases hrefuses : refusesDirection k true (.map request.scene.arguments) with
  | false =>
    obtain ⟨c?, hc?⟩ := exists_keyConditionOf k o h.accepted
    exact (exec_listQuery separator hm hk hrefuses hc?).answers
  | true => exact .inr ⟨_, _, m, exec_listQuery_refused separator hm hk hrefuses⟩

/-- **A template in a slot answers regular requests**, with an input if it belongs to a mutation. -/
theorem Session.Injects.answers {statements : List Stmt}
    (hinjects : Injects schema o ks is place statements)
    (hkeys : ∀ k ∈ ks, k.Plain o) (hindexes : ∀ i ∈ is, i.Plain o ∧ '$' ∉ i.name.toList)
    (h : request.Regular)
    (hinput : schema.Mutates (ks ++ is.map IndexDecl.toKeyDecl) place → request.input?.isSome)
    (hm : m.Stages request.scene) : (execAll separator statements).Answers m := by
  cases hinjects with
  | @primary k op hk hplace =>
    have hmem : k ∈ ks ++ is.map IndexDecl.toKeyDecl := List.mem_append_left _ hk
    have hvalid := hkeys k hk
    cases op with
    | get => exact answers_read separator hm hvalid h
    | list => exact answers_list separator hm hvalid h
    | create =>
      have hin := hinput ⟨k, hmem, _, by simp, hplace⟩
      exact answers_duty separator (w := .write k) hm hvalid hin h
    | update =>
      have hin := hinput ⟨k, hmem, _, by simp, hplace⟩
      exact answers_duty separator (w := .write k) hm hvalid hin h
    | delete =>
      have hin := hinput ⟨k, hmem, _, by simp, hplace⟩
      exact answers_duty separator (w := .delete k) hm hvalid hin h
  | @index i op hi hplace hany =>
    have hmem : i.toKeyDecl ∈ ks ++ is.map IndexDecl.toKeyDecl :=
      List.mem_append_right _ (List.mem_map.mpr ⟨i, hi, rfl⟩)
    obtain ⟨hplain, hname⟩ := hindexes i hi
    obtain ⟨hop, w, hproper, hbody, -⟩ := Duty.of_index hplain hname hany
    rw [hbody]
    exact answers_duty separator hm hproper.valid (hinput ⟨_, hmem, op, hop, hplace⟩) h

/-- The request template of an index query answers regular requests. -/
theorem answers_queryRequest (separator : String) (hm : m.Stages request.scene) (hi : i.Plain o)
    (hname : '$' ∉ i.name.toList) (h : request.Regular) :
    (execAll separator [queryRequest i o]).Answers m := by
  obtain ⟨l, hl⟩ := hm
  unfold Run.Answers
  rw [execAll_singleton]
  cases hrefuses : refusesDirection i.toKeyDecl false (.map request.scene.arguments) with
  | false =>
    obtain ⟨c?, hc?⟩ := exists_keyConditionOf i.toKeyDecl o h.accepted
    have hexpression : ∃ e?, ((Data.map request.scene.arguments).member "filter").holds = true →
        Filter.expression? ((Data.map request.scene.arguments).member "filter") = .ok e? := by
      rw [Request.scene_arguments]
      cases hholds : ((Data.map request.arguments.texts).member "filter").holds with
      | false => exact ⟨none, by simp⟩
      | true =>
        obtain ⟨e?, he⟩ := (h.filter hholds).exists_expression
        exact ⟨e?, fun _ => he⟩
    obtain ⟨e?, he⟩ := hexpression
    exact (exec_queryRequest separator hl hi hname hrefuses hc? he).answers
  | true => exact .inr ⟨_, _, m, exec_queryRequest_refused separator hl hi hrefuses⟩

/-- The message of an error is a text, so it can be written. -/
lemma Request.exists_message (request : Request) :
    ∃ t, (request.scene.error.member "message").written = .ok t := by
  cases herror : request.error with
  | none => exact ⟨"None", by rw [Request.scene, herror]; rfl⟩
  | some e => exact ⟨e.message, by rw [Request.scene, herror]; rfl⟩

/-- The response template of an index query answers any request. -/
theorem answers_queryResponse (separator : String) (hm : m.Stages request.scene) :
    (execAll separator [queryResponse]).Answers m := by
  obtain ⟨l, hl⟩ := hm
  unfold Run.Answers
  rw [execAll_singleton]
  cases hholds : request.scene.error.holds with
  | false => exact (exec_queryResponse separator hl hholds).answers
  | true =>
    obtain ⟨t, ht⟩ := request.exists_message
    exact .inr ⟨_, _, m, exec_queryResponse_error separator hl hholds ht⟩

end Declarations

/-! ## After a transformation -/

/-- The templates in the slot of the options at a place; none without a resolver. -/
def Session.templatesAt (s : Session) (place : String × String) : List MappingTemplate :=
  ((s.resolvers.get? place).map fun r => r.slot s.options.slot).getD []

/-- **Templates of declarations never get stuck.** After declarations are put into effect, the slot
at a place has further templates, and a new resolver has a request and a response template. On a
regular request every one of these goes well or raises what one of its own error statements says;
a template in the slot of a mutation needs a request with an input. -/
theorem transform_answers {ks : List KeyDecl} {is : List IndexDecl} {s s' : Session}
    {place : String × String} {request : Request} (htransform : transform ks is s = .ok () s')
    (hkeys : ∀ k ∈ ks, k.Plain s.options)
    (hindexes : ∀ i ∈ is, i.Plain s.options ∧ '$' ∉ i.name.toList)
    (hrequest : request.Regular) (separator : String) :
    (∃ new, s'.templatesAt place = s.templatesAt place ++ new ∧
      ((s.schema.Mutates (ks ++ is.map IndexDecl.toKeyDecl) place → request.input?.isSome) →
        ∀ t ∈ new, t.Answers separator request)) ∧
    ∀ r, s.resolvers.get? place = none → s'.resolvers.get? place = some r →
      (∃ t, r.request = some t ∧ t.Answers separator request) ∧
        ∃ t, r.response = some t ∧ t.Answers separator request := by
  have hgrown := transform_grows htransform
  -- a resolver that has grown has templates that answer
  have hslot : ∀ {r r' : Resolver},
      r.Grows r' s.options.slot (Injects s.schema s.options ks is place) →
        ∃ new, r'.slot s.options.slot = r.slot s.options.slot ++ new ∧
          ((s.schema.Mutates (ks ++ is.map IndexDecl.toKeyDecl) place → request.input?.isSome) →
            ∀ t ∈ new, t.Answers separator request) := by
    intro r r' hgrows
    obtain ⟨new, hnew, hinjects⟩ := hgrows.slot
    exact ⟨new, hnew, fun hinput t ht => .of_stages fun m hm =>
      (hinjects t ht).answers hkeys hindexes hrequest hinput hm⟩
  rw [Session.templatesAt, Session.templatesAt, hgrown.options]
  cases hr : s.resolvers.get? place with
  | some r =>
    obtain ⟨r', hr', hgrows⟩ := hgrown.kept place r hr
    rw [hr']
    exact ⟨hslot hgrows, fun r₁ hnone => by cases hnone⟩
  | none =>
    cases hr' : s'.resolvers.get? place with
    | none => exact ⟨⟨[], rfl, by simp⟩, fun r₁ _ hsome => by cases hsome⟩
    | some r' =>
      obtain ⟨r, hqueries, hgrows⟩ := hgrown.made place r' hr hr'
      have hempty : r.slot s.options.slot = [] := by
        rw [Resolver.slot, hqueries.slots]
        rfl
      obtain ⟨new, hnew, hanswers⟩ := hslot hgrows
      rw [hempty] at hnew
      refine ⟨⟨new, hnew, hanswers⟩, fun r₁ _ hsome => ?_⟩
      obtain rfl := Option.some.inj hsome
      obtain ⟨i, hi, t, ht, hstages⟩ := hqueries.request
      obtain ⟨t', ht', hstages'⟩ := hqueries.response
      obtain ⟨hplain, hname⟩ := hindexes i hi
      refine ⟨⟨t, hgrows.request.trans ht, .of_stages fun m hm => ?_⟩,
        t', hgrows.response.trans ht', .of_stages fun m hm => ?_⟩
      · rw [hstages]
        exact answers_queryRequest separator hm hplain hname hrequest
      · rw [hstages']
        exact answers_queryResponse separator hm

/-! ## Titled memos -/

/-- The session after declarations are put into effect. -/
def transformed? (ks : List KeyDecl) (is : List IndexDecl) (s : Session) : Option Session :=
  (do transform ks is; MonadState.get : Step Session).run' s

lemma exists_of_transformed? {ks : List KeyDecl} {is : List IndexDecl} {s : Session}
    {P : Session → Bool} (h : (transformed? ks is s).any P = true) :
    ∃ s', transform ks is s = .ok () s' ∧ P s' = true := by
  unfold transformed? at h
  delta EStateM.run' EStateM.run at h
  cases hrun : transform ks is s with
  | error e s' =>
    simp only [bind, EStateM.bind, hrun] at h
    cases h
  | ok u s' =>
    simp only [bind, EStateM.bind, hrun] at h
    exact ⟨s', rfl, h⟩

lemma title_notMem_year : "title" ∉ FieldDef.names [{ name := "year", typeName := "Int" }] := by
  decide

/-- Memos by title, in the order of their years. -/
def titledIndex : IndexDecl where
  object := memoType
  partition := { name := "title", typeName := "String" }
  sort := [{ name := "year", typeName := "Int" }]
  sort_nodup := List.nodup_singleton "year"
  partition_notMem_sort := title_notMem_year
  name := "byTitleYear"
  name_ne := by decide
  queryField := some "memosByTitle"
  primaryPartition := none

/-- A request for memos with a title, with a filter, and with the input for a memo. -/
def titledRequest : Request where
  arguments := [("title", .text "Plans"), ("input", .object memo),
    ("filter", .object [("status", .object [("ne", .text "done")])])]

lemma memo_accepted : (Data.object memo).Accepted :=
  .object (List.forall_mem_cons.mpr ⟨.of_text _, List.forall_mem_cons.mpr
    ⟨.scalar ⟨_, rfl⟩, List.forall_mem_singleton.mpr (.scalar ⟨_, rfl⟩)⟩⟩)

lemma titledRequest_regular : titledRequest.Regular where
  arguments := by
    have hoperators : (Data.object [("ne", .text "done")]).Accepted :=
      .object (List.forall_mem_singleton.mpr (.of_text _))
    exact List.forall_mem_cons.mpr ⟨.of_text _, List.forall_mem_cons.mpr
      ⟨memo_accepted, List.forall_mem_singleton.mpr
        (.object (List.forall_mem_singleton.mpr hoperators))⟩⟩
  defaults es h := by cases h
  filter _ := .map (List.forall_mem_singleton.mpr (.field (by unfold Filter.IsFieldName; decide)
    (by decide) (List.forall_mem_singleton.mpr (.compare (by decide) (.of_text _)))))

/-- The query for memos by title and the mutation that creates memos answer the request. -/
theorem transform_answers_titled :
    ∃ s', transform [filingKey] [titledIndex] (memoSession memoType "createMemo") = .ok () s' ∧
      (∃ r, s'.resolvers.get? ("Memo", "memosByTitle") = some r ∧
        ∃ t, r.request = some t ∧ t.Answers "#" titledRequest) ∧
      ∃ t ∈ s'.templatesAt ("Mutation", "createMemo"), t.Answers "#" titledRequest := by
  have hfinds : ((transformed? [filingKey] [titledIndex] (memoSession memoType "createMemo")).any
      fun after => after.resolvers.has ("Memo", "memosByTitle") &&
        !(after.templatesAt ("Mutation", "createMemo")).isEmpty) = true := by decide +kernel
  obtain ⟨s', htransform, hfinds⟩ := exists_of_transformed? hfinds
  obtain ⟨hhas, hfilled⟩ := Bool.and_eq_true_iff.mp hfinds
  have hanswers := fun place => @transform_answers _ _ _ _ place titledRequest htransform
    (List.forall_mem_singleton.mpr ⟨by decide, by decide, by decide⟩)
    (List.forall_mem_singleton.mpr ⟨⟨by decide, by decide, by decide⟩, by decide⟩)
    titledRequest_regular "#"
  obtain ⟨r, hr⟩ := Option.isSome_iff_exists.mp hhas
  obtain ⟨new, hnew, hslot⟩ := (hanswers ("Mutation", "createMemo")).1
  rw [show (memoSession memoType "createMemo").templatesAt ("Mutation", "createMemo") = [] from rfl,
    List.nil_append] at hnew
  obtain ⟨t, ht⟩ : ∃ t, t ∈ new := by
    rw [← hnew]
    exact List.exists_mem_of_ne_nil _ (by simpa using hfilled)
  exact ⟨s', htransform, ⟨r, hr, ((hanswers ("Memo", "memosByTitle")).2 r rfl hr).1⟩,
    t, hnew ▸ ht, hslot (fun _ => rfl) t ht⟩

/-- A memo whose year is a map with a key that JSON does not have. -/
def codedMemo : Entries String Data :=
  [("id", .text "m1"), ("month", .int 3), ("status", .text "open"),
    ("year", .map [(.scalar (.bytes [0]), .int 2024)])]

/-- A request for memos with a title, with a percent sign inside brackets in the filter. -/
def percentRequest : Request where
  arguments := [("title", .text "Plans"),
    ("filter", .object [("status[%]", .object [("ne", .text "done")])])]

namespace Template.MappingTemplate

/-- What comes of a template, in words. -/
def spoken (t : MappingTemplate) (separator : String) (request : Request) : Except String String :=
  ((evaluate request (t.run separator)).result.map Data.plain).mapError Failure.text

/-- A template without error statements that fails does not answer. -/
lemma not_answers {t : MappingTemplate} {separator text : String} {request : Request}
    (herrors : t.errors = []) (hspoken : t.spoken separator request = .error text) :
    ¬ t.Answers separator request := by
  rintro (⟨d, hd⟩ | ⟨message, type, -, e, he, -⟩)
  · rw [spoken, hd] at hspoken
    cases hspoken
  · rw [herrors] at he
    cases he

end Template.MappingTemplate

/-- **Irregular data get templates stuck.** A map with a key that JSON does not have cannot enter
the key of an item, and a percent sign inside brackets spoils the layout of a filter. Both
templates end with a fault, and they have no error statements. -/
theorem answers_unless_regular :
    ∃ s', transform [filingKey] [titledIndex] (memoSession memoType "createMemo") = .ok () s' ∧
      (memoRequest codedMemo).input?.isSome ∧
      (∃ t ∈ s'.templatesAt ("Mutation", "createMemo"),
        t.spoken "#" (memoRequest codedMemo) = .error ("Template evaluation failed in " ++
          "'Mutation.createMemo.postAuth.1.req.vtl': TypeError: " ++
          "keys must be str, int, float, bool or None, not bytes") ∧
        ¬ t.Answers "#" (memoRequest codedMemo)) ∧
      ∃ r, s'.resolvers.get? ("Memo", "memosByTitle") = some r ∧ ∃ t, r.request = some t ∧
        t.spoken "#" percentRequest = .error ("Template evaluation failed in " ++
          "'Query.memosByTitle.req.vtl': TypeError: not enough arguments for format string") ∧
        ¬ t.Answers "#" percentRequest := by
  have hfinds : ((transformed? [filingKey] [titledIndex] (memoSession memoType "createMemo")).any
      fun after => ((after.templatesAt ("Mutation", "createMemo")).any fun t => t.errors.isEmpty &&
          decide (t.spoken "#" (memoRequest codedMemo) = .error ("Template evaluation failed in " ++
            "'Mutation.createMemo.postAuth.1.req.vtl': TypeError: " ++
            "keys must be str, int, float, bool or None, not bytes"))) &&
        (after.resolvers.get? ("Memo", "memosByTitle")).any fun r => r.request.any fun t =>
          t.errors.isEmpty && decide (t.spoken "#" percentRequest =
            .error ("Template evaluation failed in " ++ "'Query.memosByTitle.req.vtl': " ++
              "TypeError: not enough arguments for format string"))) = true := by decide +kernel
  obtain ⟨s', htransform, hfinds⟩ := exists_of_transformed? hfinds
  obtain ⟨hslot, hquery⟩ := Bool.and_eq_true_iff.mp hfinds
  obtain ⟨t, ht, hstuck⟩ := List.any_eq_true.mp hslot
  obtain ⟨herrors, hspoken⟩ := Bool.and_eq_true_iff.mp hstuck
  obtain ⟨r, hr, hrequest⟩ := (Option.any_eq_true _ _).mp hquery
  obtain ⟨t', ht', hstuck'⟩ := (Option.any_eq_true _ _).mp hrequest
  obtain ⟨herrors', hspoken'⟩ := Bool.and_eq_true_iff.mp hstuck'
  exact ⟨s', htransform, rfl,
    ⟨t, ht, of_decide_eq_true hspoken,
      MappingTemplate.not_answers (List.isEmpty_iff.mp herrors) (of_decide_eq_true hspoken)⟩,
    r, hr, t', ht', of_decide_eq_true hspoken',
    MappingTemplate.not_answers (List.isEmpty_iff.mp herrors') (of_decide_eq_true hspoken')⟩

end TableKeys
