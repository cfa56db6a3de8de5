/-
# Requests of index queries

The template for the request of an index query makes a map in a new cell, puts entries into it one
after the other (`Machine.Requests`) and puts it out. What comes out is told of the arguments alone
(`indexRequest`), and the context of the request stays as it is (`exec_queryRequest`). The template
for the response puts out the result, or raises the error that the operation left.
-/
import TableKeys.Filter.Expression
import TableKeys.Proofs.Queries

namespace TableKeys

open Template Snippet

namespace Data

/-- The data is this text. -/
def isText (d : Data) (s : String) : Bool :=
  match d with
  | .text t => t == s
  | _ => false

/-- The data holds as a condition: it is neither null nor false. -/
def holds : Data → Bool
  | .null | .bool false => false
  | _ => true

lemma equal_text (d : Data) (s : String) : d.equal (.text s) = .ok (d.isText s) := by
  cases d with
  | scalar a => cases a <;> simp [equal, isText, Scalar.compared, Scalar.clashes, Scalar.equal,
      Scalar.number?, Scalar.isSignaling]
  | _ => simp [equal, same, isText]

end Data

/-- The number of items that a query asks for. -/
def queryLimit (o : Options) (arguments : Data) : Data :=
  if (arguments.member "limit").isNull then .scalar o.pageLimit else arguments.member "limit"

/-- The request of an index query with a key condition and the condition of its filter. -/
def indexRequest (i : IndexDecl) (o : Options) (arguments : Data) (c? : Option KeyCondition)
    (e? : Option Filter.Expression) : Data :=
  .object ([
    ("version", .text requestVersion),
    ("operation", .text "Query"),
    ("limit", queryLimit o arguments),
    ("query", keyConditionData c?),
    ("index", .text i.name),
    ("scanIndexForward", .bool !((arguments.member "sortDirection").isText "DESC"))] ++
    (if (arguments.member "nextToken").holds then [("nextToken", arguments.member "nextToken")]
      else []) ++
    if (arguments.member "filter").holds then
      [("filter", (e?.map Filter.Expression.data).getD .null)]
    else [])

namespace Template

variable {separator : String} {m₀ m m₁ : Machine} {l : Layout} {sc : Scene} {r : Address}
  {es : Entries String Data} {d : Data} {v : Value}

lemma holds_of_shows {s : Store} {free : Address → Prop} (h : Shows s free d v) :
    v.holds = d.holds := by
  refine Shows.induction (motive := fun d v => v.holds = d.holds) (fun a => ?_)
    (fun _ _ _ => rfl) (fun _ _ _ _ _ _ => rfl) (fun _ _ _ _ _ _ _ => rfl) (fun _ _ _ _ => rfl) h
  cases a with
  | bool b => cases b <;> rfl
  | _ => rfl

/-! ## Expressions that change nothing -/

lemma evalEntries_still {es : List (String × Expr)} {vs : List (String × Value)}
    (h : RowOf (fun e v => e.eval separator m = .ok v m) es vs) :
    evalEntries separator es m = .ok vs m := by
  induction h with
  | nil => rw [evalEntries, Run.pure_apply]
  | @cons e w _ _ head _ ih =>
    obtain ⟨name, e⟩ := e
    obtain ⟨name', v⟩ := w
    obtain ⟨rfl, hv⟩ : name = name' ∧ e.eval separator m = .ok v m := head
    rw [evalEntries, Run.bind_ok hv, Run.bind_ok ih, Run.pure_apply]

/-- A map in braces whose entries change nothing is a new map of their values. -/
lemma eval_object_still {es : List (String × Expr)} {vs : List (String × Value)}
    (h : RowOf (fun e v => e.eval separator m = .ok v m) es vs) :
    (Expr.object es).eval separator m = .ok (.ref m.store.cells.size) { m with
      store := (m.store.alloc (.map (Entries.ofList (Entries.texts vs)))).2 } := by
  rw [Expr.eval, Run.bind_ok (evalEntries_still h)]
  rfl

lemma eval_intOf (a : Scalar) : (Expr.intOf a).eval separator m = .ok (.scalar a) m := by
  cases a <;> simp only [Expr.intOf] <;> rw [Expr.eval] <;> rfl

/-! ## Requests that are put together -/

/-- The machine goes on from another, and a request is put together in a new cell. -/
structure Machine.Requests (m₀ m : Machine) (r : Address) (es : Entries String Data) : Prop where
  continues : m₀.Continues m
  new : m₀.store.New r
  bound : m.bindings.get? "QueryRequest" = some (.ref r)
  entries : ∃ ws, m.store.get? r = some (.map ws) ∧ RowOf (Shows m.store (· ≠ r)) es.texts ws

namespace Machine.Requests

lemma shows (h : m₀.Requests m r es) : Shows m.store (fun _ => True) (.object es) (.ref r) := by
  obtain ⟨ws, hc, row⟩ := h.entries
  exact shows_map.mpr ⟨r, ws, rfl, trivial, hc, row.imp fun _ _ hd => ⟨hd.1, hd.2.anywhere⟩⟩

lemma resolve (h : m₀.Requests m r es) :
    resolve m.store m.bindings "QueryRequest" = .ok (.ref r) := by
  rw [resolve_variable m.store m.bindings (by decide), h.bound]
  rfl

/-- What is shown in the cells from the start is shown outside of the request. -/
lemma beside (h : m₀.Requests m r es) {s : Store}
    (hd : Shows s (fun a => ¬ m₀.store.New a) d v) : Shows s (· ≠ r) d v := by
  refine hd.mono (fun a ha _ => ?_) fun _ _ _ => rfl
  rintro rfl
  exact ha h.new

/-- An entry is put into the request. -/
lemma exec_put {key : String} {value : Expr} (h : m₀.Requests m r es)
    (hv : value.eval separator m = .ok v m₁) (hm₁ : m.Extends m₁)
    (hd : Shows m₁.store (· ≠ r) d v) (hkey : '.' ∉ key.toList) :
    ((Stmt.set (.ref (child "QueryRequest" key)) value).exec separator).Reaches m fun m' =>
      m₀.Requests m' r (es.put key d) := by
  obtain ⟨ws, hc, row⟩ := h.entries
  have hc₁ : m₁.store.get? r = some (.map ws) :=
    (hm₁.store.get?_eq r (Store.lt_of_get? hc)).trans hc
  have hbound₁ : m₁.bindings.get? "QueryRequest" = some (.ref r) := by rw [hm₁.bindings, h.bound]
  have hpath : Template.resolve m₁.store m₁.bindings "QueryRequest" = .ok (.ref r) := by
    rw [resolve_variable m₁.store m₁.bindings (by decide), hbound₁]
    rfl
  have hrow : RowOf (Shows m₁.store (· ≠ r)) es.texts ws :=
    row.imp fun _ _ hd => ⟨hd.1, hd.2.extend hm₁.store fun _ ha _ => ha⟩
  refine ⟨_, exec_set_child hpath (by decide) hc₁ hv hkey, (h.continues.extend hm₁).setMap h.new _,
    h.new, hbound₁, ws.put (.text key) v, ?_, ?_⟩
  · exact Store.get?_set_self hc₁
  · rw [Entries.texts_put]
    refine (rowOf_put hrow (.text key) hd).imp fun _ _ hd => ⟨hd.1, ?_⟩
    exact hd.2.mono (fun _ ha _ => ha) fun a ha _ => Store.get?_set_of_ne (Ne.symm ha) _

/-- An entry for an argument is put into the request if the argument holds. -/
lemma exec_putIfHolds {key path : String} {d' : Data} (separator : String) (value : Expr)
    (h₀ : m₀.Holds l sc) (h : m₀.Requests m r es) (hpath : sc.Leads path d)
    (hv : d.holds = true → ∃ v m₁, value.eval separator m = .ok v m₁ ∧ m.Extends m₁ ∧
      Shows m₁.store (· ≠ r) d' v) (hkey : '.' ∉ key.toList) (hnew : es.has key = false) :
    ((Stmt.choice (.ref path) [.set (.ref (child "QueryRequest" key)) value] none).exec
      separator).Reaches m fun m' =>
        m₀.Requests m' r (es ++ if d.holds then [(key, d')] else []) := by
  obtain ⟨v, hcondition, hshows⟩ := h₀.eval_leads separator h.continues hpath
  cases hholds : d.holds with
  | false =>
    refine ⟨m, exec_choice_none hcondition (by rw [holds_of_shows hshows, hholds]), ?_⟩
    rwa [if_neg (by simp), List.append_nil]
  | true =>
    obtain ⟨w, m₁, heval, hm₁, hd⟩ := hv hholds
    obtain ⟨m', hexec, hm'⟩ := h.exec_put heval hm₁ hd hkey
    refine ⟨m', ?_, ?_⟩
    · rw [exec_choice_true hcondition (by rw [holds_of_shows hshows, hholds]),
        execBranch_singleton (by simp), hexec]
    · rwa [if_pos rfl, ← Entries.put_of_has_eq_false hnew]

end Machine.Requests

/-! ## The request of an index query -/

section Statements

variable {i : IndexDecl} {o : Options} {q : Address} {c? : Option KeyCondition}
  {e? : Option Filter.Expression}

lemma eval_limit (separator : String) (o : Options) (h₀ : m₀.Holds l sc) (hm : m₀.Continues m) :
    ∃ v, (Expr.defaultIfNull (.ref "ctx.args.limit") (.intOf o.pageLimit)).eval separator m =
        .ok v m ∧
      Shows m.store (fun a => ¬ m₀.store.New a) (queryLimit o (.map sc.arguments)) v := by
  have hpath : sc.Leads "ctx.args.limit" ((Data.map sc.arguments).member "limit") :=
    sc.leads_argument (show isSchemaName "limit" = true by decide)
  obtain ⟨v, hv, hshows⟩ := h₀.eval_leads separator hm hpath
  have hnull := Machine.Holds.isNull_of_shows hshows
  rw [queryLimit]
  cases hlimit : ((Data.map sc.arguments).member "limit").isNull with
  | true =>
    refine ⟨.scalar o.pageLimit, ?_, shows_scalar.mpr rfl⟩
    rw [eval_defaultIfNull_null hv (hnull.trans hlimit), eval_intOf]
  | false => exact ⟨v, eval_defaultIfNull_present hv (hnull.trans hlimit), hshows⟩

/-- The request is made with the entries that it has in any case. -/
lemma exec_makeRequest (separator : String) {limit : Data} (hm : m₀.Continues m)
    (hname : '$' ∉ i.name.toList) (hlimit : m.bindings.get? "limit" = some v)
    (hshows : Shows m.store (fun _ => True) limit v)
    (hquery : m.bindings.get? modelQueryExpression = some (.ref q))
    (hshown : Shows m.store (fun _ => True) d (.ref q)) :
    ((Stmt.set (.ref "QueryRequest") (.object [
      ("version", .text requestVersion), ("operation", .text "Query"), ("limit", .ref "limit"),
      ("query", .ref modelQueryExpression), ("index", .text i.name)])).exec separator).Reaches m
      fun m' => ∃ r, m₀.Requests m' r [("version", .text requestVersion),
        ("operation", .text "Query"), ("limit", limit), ("query", d), ("index", .text i.name)] := by
  have hvariable : ∀ {name : String} {w : Value}, isSchemaName name = true →
      m.bindings.get? name = some w → (Expr.ref name).eval separator m = .ok w m := by
    intro name w hschema hw
    exact eval_ref (by rw [resolve_variable m.store m.bindings hschema, hw]; rfl)
  set vs : List (String × Value) := [("version", .text requestVersion),
    ("operation", .text "Query"), ("limit", v), ("query", .ref q), ("index", .text i.name)] with hvs
  have hrow : RowOf (fun (e : Expr) w => e.eval separator m = .ok w m)
      [("version", .text requestVersion), ("operation", .text "Query"), ("limit", .ref "limit"),
        ("query", .ref modelQueryExpression), ("index", .text i.name)] vs :=
    .cons ⟨rfl, eval_text_plain (by decide)⟩ (.cons ⟨rfl, eval_text_plain (by decide)⟩
      (.cons ⟨rfl, hvariable (by decide) hlimit⟩ (.cons ⟨rfl, hvariable (by decide) hquery⟩
        (.cons ⟨rfl, eval_text_plain hname⟩ .nil))))
  have hset := exec_set_variable (show '.' ∉ "QueryRequest".toList by decide)
    (eval_object_still hrow)
  set r := m.store.cells.size
  set s := (m.store.alloc (.map (Entries.ofList (Entries.texts vs)))).2
  have hs : m.store.Extends s := .alloc _ _
  have hcontinues : m₀.Continues { m with store := s } := hm.extend (.of_store hs)
  have hrebinds := Machine.Rebinds.put { m with store := s } "QueryRequest" (.ref r) m.log
  refine ⟨_, hset, r, hcontinues.rebind hrebinds (by decide), hm.store.size_le,
    Entries.get?_put_self _ _ _, _, Store.get?_alloc_new _ _, ?_⟩
  have hcarry : ∀ {d : Data} {w : Value}, Shows m.store (fun _ => True) d w →
      Shows s (· ≠ r) d w :=
    fun hd => hd.extend hs fun _ _ hlt => Nat.ne_of_lt hlt
  exact .cons ⟨rfl, shows_scalar.mpr rfl⟩ (.cons ⟨rfl, shows_scalar.mpr rfl⟩
    (.cons ⟨rfl, hcarry hshows⟩ (.cons ⟨rfl, hcarry hshown⟩
      (.cons ⟨rfl, shows_scalar.mpr rfl⟩ .nil))))

/-- The order is forward unless the direction says otherwise. -/
lemma Machine.Requests.exec_setForward (separator : String) (h₀ : m₀.Holds l sc)
    (h : m₀.Requests m r es) (hnew : es.has "scanIndexForward" = false) :
    ((Stmt.choice
      (.and [present (.ref sortDirectionPath), .equals (.ref sortDirectionPath) (.text "DESC")])
      [.set (.ref (child "QueryRequest" "scanIndexForward")) (.bool false)]
      (some [.set (.ref (child "QueryRequest" "scanIndexForward")) (.bool true)])).exec
        separator).Reaches m fun m' => m₀.Requests m' r (es ++ [("scanIndexForward",
          .bool !(((Data.map sc.arguments).member "sortDirection").isText "DESC"))]) := by
  set direction := (Data.map sc.arguments).member "sortDirection" with hdirection
  obtain ⟨v, hv, hshows⟩ := h₀.eval_leads separator h.continues sc.leads_direction
  have hequals : (Expr.equals (.ref sortDirectionPath) (.text "DESC")).eval separator m =
      .ok (.bool (direction.isText "DESC")) m := by
    have hsame : equalValues v (.text "DESC") m = .ok (direction.isText "DESC") m := by
      rw [equalValues, Run.bind_ok (Run.read_apply v), Run.bind_ok (Run.read_apply _),
        hshows.read_eq]
      exact Run.ofExcept_ok (Data.equal_text direction "DESC")
    rw [Expr.eval, Run.bind_ok hv, Run.bind_ok (eval_text_plain (by decide)), Run.bind_ok hsame]
    rfl
  have hboth : (!direction.isNull && direction.isText "DESC") = direction.isText "DESC" := by
    match direction with
    | .null => rfl
    | .bool _ | .int _ | .text _ => rfl
    | .scalar (.float _) | .scalar (.decimal _) | .scalar (.bytes _) => rfl
    | .list _ | .map _ | .record .. | .pair .. => rfl
  have hcondition := eval_and (h₀.eval_present separator h.continues sc.leads_direction)
    fun _ => hequals
  rw [← hdirection, hboth] at hcondition
  rw [← Entries.put_of_has_eq_false hnew]
  have hput : ∀ b : Bool, ((Stmt.set (.ref (child "QueryRequest" "scanIndexForward"))
      (.bool b)).exec separator).Reaches m fun m' =>
        m₀.Requests m' r (es.put "scanIndexForward" (.bool b)) :=
    fun b => h.exec_put (eval_bool b) (.refl m) (shows_scalar.mpr rfl) (by decide)
  cases hdesc : direction.isText "DESC" with
  | true =>
    obtain ⟨m', hexec, hm'⟩ := hput false
    exact ⟨m', by rw [exec_choice_true hcondition (by rw [hdesc]; rfl),
      execBranch_singleton (by simp), hexec], hm'⟩
  | false =>
    obtain ⟨m', hexec, hm'⟩ := hput true
    exact ⟨m', by rw [exec_choice_false hcondition (by rw [hdesc]; rfl),
      execBranch_singleton (by simp), hexec], hm'⟩

/-- The condition of a filter is put into new cells. -/
lemma eval_toFilter {path : String} (separator : String) (h₀ : m₀.Holds l sc)
    (h : m₀.Requests m r es) (hpath : sc.Leads path d) (he : Filter.expression? d = .ok e?) :
    ∃ v m₁, (Expr.toFilter (.ref path)).eval separator m = .ok v m₁ ∧ m.Extends m₁ ∧
      Shows m₁.store (· ≠ r) ((e?.map Filter.Expression.data).getD .null) v := by
  obtain ⟨v, hv, hshows⟩ := h₀.eval_leads separator h.continues hpath
  have heval : (Expr.toFilter (.ref path)).eval separator m = toFilterExpression v m := by
    rw [Expr.eval, Run.bind_ok hv]
  cases e? with
  | none =>
    have hnull : toFilterExpression v m = .ok .null m := by
      rw [toFilterExpression, Run.bind_ok (Run.read_apply v), hshows.read_eq, he]
      rfl
    exact ⟨.null, m, heval.trans hnull, .refl m, shows_scalar.mpr rfl⟩
  | some e =>
    have hload : toFilterExpression v m = Run.load e.data m := by
      rw [toFilterExpression, Run.bind_ok (Run.read_apply v), hshows.read_eq, he]
    obtain ⟨hs, hd⟩ := m.store.load_shows e.data
    obtain ⟨ws, hc, -⟩ := h.entries
    refine ⟨_, _, (heval.trans hload).trans (Run.load_apply e.data), .of_store hs, ?_⟩
    exact hd.mono (fun a ha _ => (Nat.ne_of_lt ((Store.lt_of_get? hc).trans_le ha)).symm)
      fun _ _ _ => rfl

/-- **The request of an index query is put out**, and the context is as it was. -/
theorem exec_queryRequest (separator : String) (h : m.Holds l sc) (hk : i.toKeyDecl.Plain o)
    (hname : '$' ∉ i.name.toList)
    (haccepts : refusesDirection i.toKeyDecl false (.map sc.arguments) = false)
    (hc? : keyConditionOf i.toKeyDecl o (.map sc.arguments) = .ok c?)
    (he : ((Data.map sc.arguments).member "filter").holds = true →
      Filter.expression? ((Data.map sc.arguments).member "filter") = .ok e?) :
    ((queryRequest i o).exec separator).Reaches m fun m' => l.Holds m'.store sc ∧
      m'.context = m.context ∧
      Shows m'.store (fun _ => True) (indexRequest i o (.map sc.arguments) c? e?) m'.output := by
  have hnextToken : sc.Leads "ctx.args.nextToken" ((Data.map sc.arguments).member "nextToken") :=
    sc.leads_argument (show isSchemaName "nextToken" = true by decide)
  have hfilter : sc.Leads "ctx.args.filter" ((Data.map sc.arguments).member "filter") :=
    sc.leads_argument (show isSchemaName "filter" = true by decide)
  -- the key condition and the limit
  obtain ⟨m₁, hexec₁, hm₁, q, hq, hquery⟩ := exec_queryExpression separator h hk haccepts hc?
  obtain ⟨v, hv, hlimit⟩ := eval_limit separator o h hm₁
  have hexec₂ := exec_set_variable (show '.' ∉ "limit".toList by decide) hv
  have hrebinds := Machine.Rebinds.put m₁ "limit" v m₁.log
  -- the request, entry by entry
  obtain ⟨m₃, hexec₃, r, h₃⟩ := exec_makeRequest separator
    (hm₁.rebind hrebinds (by decide)) hname (Entries.get?_put_self _ _ _) hlimit.anywhere
    ((hrebinds.others _ (by decide)).trans hq) hquery.anywhere
  obtain ⟨m₄, hexec₄, h₄⟩ := h₃.exec_setForward separator h rfl
  obtain ⟨m₅, hexec₅, h₅⟩ := h₄.exec_putIfHolds separator (.ref "ctx.args.nextToken") h
    hnextToken (fun _ => by
      obtain ⟨w, hw, hd⟩ := h.eval_leads separator h₄.continues hnextToken
      exact ⟨w, m₄, hw, .refl m₄, h₄.beside hd⟩) (show '.' ∉ "nextToken".toList by decide) rfl
  obtain ⟨m₆, hexec₆, h₆⟩ := h₅.exec_putIfHolds separator
    (.toFilter (.ref "ctx.args.filter")) h hfilter
    (fun hholds => eval_toFilter separator h h₅ hfilter (he hholds))
    (show '.' ∉ "filter".toList by decide) (by split <;> rfl)
  have hemit : (Stmt.emit (.ref "QueryRequest")).exec separator m₆ =
      .ok () { m₆ with output := .ref r } := by
    rw [Stmt.exec, Run.bind_ok (eval_ref h₆.resolve)]
    rfl
  refine ⟨{ m₆ with output := .ref r }, ?_, h.store.extend h₆.continues.store,
    h₆.continues.context, h₆.shows⟩
  rw [queryRequest, Stmt.exec]
  dsimp only
  rw [execAll_cons_ok hexec₁, execAll_cons_ok hexec₂, execAll_cons_ok hexec₃,
    execAll_cons_ok hexec₄, execAll_cons_ok hexec₅, execAll_cons_ok hexec₆, execAll_singleton,
    hemit]

/-- An index query with a direction that is refused raises an error and changes nothing. -/
theorem exec_queryRequest_refused (separator : String) (h : m.Holds l sc)
    (hk : i.toKeyDecl.Plain o)
    (hrefuses : refusesDirection i.toKeyDecl false (.map sc.arguments) = true) :
    (queryRequest i o).exec separator m =
      .error (.raised (directionRefusal i.toKeyDecl) (.text invalidArguments)) m := by
  rw [queryRequest, Stmt.exec]
  dsimp only
  rw [execAll_cons_error (exec_queryExpression_refused separator h hk hrefuses)]

/-! ## The response -/

/-- **The response is the result**, unless the operation left an error. -/
theorem exec_queryResponse (separator : String) (h : m.Holds l sc)
    (hholds : sc.error.holds = false) :
    (queryResponse.exec separator).Reaches m fun m' => l.Holds m'.store sc ∧
      m'.context = m.context ∧ Shows m'.store (fun _ => True) sc.result m'.output := by
  have herror : sc.Leads "ctx.error" sc.error :=
    sc.leads_ctx.member (show isSchemaName "error" = true by decide)
  have hresult : sc.Leads "ctx.result" sc.result :=
    sc.leads_ctx.member (show isSchemaName "result" = true by decide)
  obtain ⟨v, hv, hshows⟩ := h.eval_leads separator (.refl m) herror
  obtain ⟨w, hw, hd⟩ := h.eval_leads separator (.refl m) hresult
  have hchoice : (Stmt.choice (.ref "ctx.error")
      [.error (.ref "ctx.error.message") (some (.ref "ctx.error.type"))] none).exec separator m =
        .ok () m := exec_choice_none hv (by rw [holds_of_shows hshows, hholds])
  have hemit : (Stmt.emit (.ref "ctx.result")).exec separator m =
      .ok () { m with output := w } := by
    rw [Stmt.exec, Run.bind_ok hw]
    rfl
  refine ⟨{ m with output := w }, ?_, h.store, rfl, hd.anywhere⟩
  rw [queryResponse, Stmt.exec, execAll_cons_ok hchoice, execAll_singleton, hemit]

/-- **The error of the operation is raised** with its message and its type. -/
theorem exec_queryResponse_error (separator : String) (h : m.Holds l sc)
    (hholds : sc.error.holds = true) {t : String}
    (ht : (sc.error.member "message").written = .ok t) :
    queryResponse.exec separator m = .error (.raised t (sc.error.member "type")) m := by
  have herror : sc.Leads "ctx.error" sc.error :=
    sc.leads_ctx.member (show isSchemaName "error" = true by decide)
  have hmessage : sc.Leads "ctx.error.message" (sc.error.member "message") :=
    herror.member (show isSchemaName "message" = true by decide)
  have htype : sc.Leads "ctx.error.type" (sc.error.member "type") :=
    herror.member (show isSchemaName "type" = true by decide)
  obtain ⟨v, hv, hshows⟩ := h.eval_leads separator (.refl m) herror
  obtain ⟨u, hu, hmessage⟩ := h.eval_leads separator (.refl m) hmessage
  obtain ⟨w, hw, htype⟩ := h.eval_leads separator (.refl m) htype
  have hraise : (Stmt.error (.ref "ctx.error.message") (some (.ref "ctx.error.type"))).exec
      separator m = .error (.raised t (sc.error.member "type")) m := by
    rw [Stmt.exec, Run.bind_ok hu]
    simp only
    rw [Run.bind_ok hw, Run.bind_ok (Run.read_apply u), Run.bind_ok (Run.read_apply w),
      hmessage.read_eq, htype.read_eq, Run.bind_ok (Run.ofExcept_ok ht)]
    rfl
  rw [queryResponse, Stmt.exec, execAll_cons_error]
  rw [exec_choice_true hv (by rw [holds_of_shows hshows, hholds]),
    execBranch_singleton (by simp), hraise]

end Statements

end Template

end TableKeys
