/-
# What the request of an index query asks for

The template for the request of an index query is evaluated on a request. It refuses a direction
where there is nothing to order. Otherwise it puts out a request with the entries of
`IndexDecl.Asks`, whose key condition is the one that a list leaves for the same arguments. The
context stays as it was in any case (`queryRequest_asks`).
-/
import TableKeys.Proofs.IndexRequests
import TableKeys.Proofs.ListQueries

namespace TableKeys

open Template Snippet

/-- The entries ask for the items of an index that the arguments want. -/
structure IndexDecl.Asks (i : IndexDecl) (o : Options) (arguments : Data)
    (es : Entries String Data) : Prop where
  keys : es.keys = ["version", "operation", "limit", "query", "index", "scanIndexForward"] ++
    (if (arguments.member "nextToken").holds then ["nextToken"] else []) ++
    if (arguments.member "filter").holds then ["filter"] else []
  version : es.get? "version" = some (.text requestVersion)
  operation : es.get? "operation" = some (.text "Query")
  limit : es.get? "limit" = some
    (if (arguments.member "limit").isNull then .scalar o.pageLimit else arguments.member "limit")
  index : es.get? "index" = some (.text i.name)
  forward : es.get? "scanIndexForward" =
    some (.bool !((arguments.member "sortDirection").isText "DESC"))
  nextToken : (arguments.member "nextToken").holds = true →
    es.get? "nextToken" = some (arguments.member "nextToken")
  filter : (arguments.member "filter").holds = true →
    ∃ e?, Filter.expression? (arguments.member "filter") = .ok e? ∧
      es.get? "filter" = some ((e?.map Filter.Expression.data).getD .null)

/-- The request of an index query asks for what the arguments want. -/
lemma exists_asks (i : IndexDecl) (o : Options) {arguments : Data} (c? : Option KeyCondition)
    {e? : Option Filter.Expression} (he : (arguments.member "filter").holds = true →
      Filter.expression? (arguments.member "filter") = .ok e?) :
    ∃ es : Entries String Data, indexRequest i o arguments c? e? = .object es ∧
      i.Asks o arguments es ∧ es.get? "query" = some (keyConditionData c?) := by
  refine ⟨_, rfl, ⟨?_, rfl, rfl, rfl, rfl, rfl, fun hholds => ?_, fun hholds => ?_⟩, rfl⟩
  · cases (arguments.member "nextToken").holds <;> cases (arguments.member "filter").holds <;> rfl
  · rw [hholds]
    rfl
  · refine ⟨e?, he hholds, ?_⟩
    rw [hholds]
    cases (arguments.member "nextToken").holds <;> rfl

namespace Template

/-- A list leaves the key condition in the metadata, unless it refuses the direction. -/
lemma listQuery_context {k : KeyDecl} {o : Options} {request : Request} {separator : String}
    {c? : Option KeyCondition} {d : Data} (hk : k.Plain o)
    (hc? : keyConditionOf k o (.map request.arguments.texts) = .ok c?)
    (h : (evaluate request ((listQuery k o).run separator)).result = .ok d) :
    (evaluate request ((listQuery k o).run separator)).context =
      (request.scene.asked (keyConditionData c?)).data := by
  have hscene : Data.map request.scene.arguments = Data.map request.arguments.texts := by
    rw [Request.scene_arguments]
  cases hrefuses : refusesDirection k true (.map request.scene.arguments) with
  | true =>
    have hraises := (evaluate_statement_error fun m hm =>
      exec_listQuery_refused separator hm hk hrefuses).1
    rw [h] at hraises
    cases hraises
  | false =>
    exact (evaluate_statement fun m hm =>
      exec_listQuery separator hm hk hrefuses (by rw [hscene, hc?])).2

/-- **The request of an index query.** A direction is refused just if there is no sort field.
Otherwise the request asks for the items that the arguments want, with the key condition that a list
leaves for them, as far as it does not refuse. The context is as it was in any case. -/
theorem queryRequest_asks {i : IndexDecl} {o : Options} {request : Request} (separator : String)
    (hk : i.toKeyDecl.Plain o) (hname : '$' ∉ i.name.toList)
    (hsend : SerializableArguments i.toKeyDecl (.map request.arguments.texts))
    (hfilter : ((Data.map request.arguments.texts).member "filter").holds = true →
      ∃ e?, Filter.expression? ((Data.map request.arguments.texts).member "filter") = .ok e?) :
    let arguments := Data.map request.arguments.texts
    let outcome := evaluate request ((queryRequest i o).run separator)
    let listed := evaluate request ((listQuery i.toKeyDecl o).run separator)
    let refused := i.sortFields = [] ∧ (arguments.member "sortDirection").isNull = false
    outcome.context = request.data ∧
      ((∃ message, outcome.result = .error (.raised message (.text "InvalidArgumentsError"))) ↔
        refused) ∧
      (¬ refused → ∃ (es : Entries String Data) (query : Data), outcome.result = .ok (.object es) ∧
        i.Asks o arguments es ∧ es.get? "query" = some query ∧
        ∀ d, listed.result = .ok d → listed.context = (request.scene.asked query).data) := by
  intro arguments outcome listed refused
  have hrefused : refused ↔ refusesDirection i.toKeyDecl false arguments = true := by
    simp [refused, refusesDirection, and_comm]
  have hscene : Data.map request.scene.arguments = arguments := by
    rw [Request.scene_arguments]
  by_cases hr : refused
  · have hraises : ∀ m : Machine, m.Stages request.scene → (queryRequest i o).exec separator m =
        .error (.raised (directionRefusal i.toKeyDecl) (.text invalidArguments)) m := by
      rintro m ⟨l, hl⟩
      exact exec_queryRequest_refused separator hl hk (by rw [hscene]; exact hrefused.mp hr)
    obtain ⟨hresult, hcontext⟩ := evaluate_statement_error hraises
    exact ⟨hcontext, iff_of_true ⟨_, hresult⟩ hr, fun hnot => absurd hr hnot⟩
  · have haccepts : refusesDirection i.toKeyDecl false (.map request.scene.arguments) = false := by
      rw [hscene, ← Bool.not_eq_true]
      exact mt hrefused.mpr hr
    obtain ⟨c?, hc?⟩ : ∃ c?, keyConditionOf i.toKeyDecl o arguments = .ok c? := by
      cases hnull : (arguments.member i.partition.name).isNull with
      | true => exact ⟨none, by rw [keyConditionOf, if_pos hnull]⟩
      | false =>
        obtain ⟨a, clauses, -, hc⟩ := exists_keyConditionOf_present o hsend hnull
        exact ⟨_, hc⟩
    obtain ⟨e?, he⟩ : ∃ e?, (arguments.member "filter").holds = true →
        Filter.expression? (arguments.member "filter") = .ok e? := by
      cases hholds : (arguments.member "filter").holds with
      | true =>
        obtain ⟨e?, he⟩ := hfilter hholds
        exact ⟨e?, fun _ => he⟩
      | false => exact ⟨none, fun hfalse => absurd hfalse (by simp)⟩
    have hreaches : ∀ m : Machine, m.Stages request.scene →
        ((queryRequest i o).exec separator).Reaches m fun m' =>
          m'.store.read m'.context = request.data ∧
            m'.store.read m'.output = indexRequest i o arguments c? e? := by
      rintro m ⟨l, hl⟩
      obtain ⟨m', hexec, hstore, hcontext, hshows⟩ := exec_queryRequest separator hl hk hname
        haccepts (by rw [hscene, hc?]) (by rw [hscene]; exact he)
      refine ⟨m', hexec, ?_, ?_⟩
      · rw [hcontext, hl.context]
        exact hstore.read_eq.trans request.scene_data
      · rw [hshows.read_eq, hscene]
    obtain ⟨hresult, hcontext⟩ := evaluate_reaches hreaches
    refine ⟨hcontext, iff_of_false ?_ hr, fun _ => ?_⟩
    · rintro ⟨message, hraised⟩
      rw [show outcome.result = _ from hresult] at hraised
      cases hraised
    · obtain ⟨es, hes, hasks, hquery⟩ := exists_asks i o c? he
      exact ⟨es, keyConditionData c?, hresult.trans (congrArg Except.ok hes), hasks, hquery,
        fun d hd => listQuery_context hk hc? hd⟩

/-- The index of the books of an author by year. -/
def authorIndex : IndexDecl where
  object := { name := "Book" }
  partition := { name := "author", typeName := "String" }
  sort := [{ name := "year", typeName := "Int" }]
  sort_nodup := List.nodup_singleton "year"
  partition_notMem_sort := by decide
  name := "byAuthor"
  name_ne := by decide
  queryField := some "booksByAuthor"
  primaryPartition := none

/-- A request for the long books of an author since some year, the latest first. -/
def booksWanted : Request where
  arguments := [("author", .text "ana"), ("year", .object [("ge", .int 2000)]),
    ("sortDirection", .text "DESC"), ("nextToken", .bool false),
    ("filter", .object [("pages", .object [("gt", .int 500)])])]

theorem queryRequest_asks_books : ∃ es : Entries String Data,
    (evaluate booksWanted ((queryRequest authorIndex {}).run "#")).result = .ok (.object es) ∧
      (evaluate booksWanted ((queryRequest authorIndex {}).run "#")).context = booksWanted.data ∧
      es.keys = ["version", "operation", "limit", "query", "index", "scanIndexForward",
        "filter"] ∧
      es.get? "limit" = some (.int 100) ∧ es.get? "scanIndexForward" = some (.bool false) := by
  have hused : usedOperators authorIndex.toKeyDecl (.map booksWanted.arguments.texts) =
      [("ge", "#sortKey >= :sortKey")] := rfl
  have hsend : SerializableArguments authorIndex.toKeyDecl (.map booksWanted.arguments.texts) := by
    refine ⟨⟨_, rfl⟩, fun operator hoperator d hd => ?_⟩
    rw [hused] at hoperator
    obtain rfl := List.mem_singleton.mp hoperator
    obtain rfl := List.mem_singleton.mp hd
    exact ⟨_, rfl⟩
  obtain ⟨hcontext, -, hasks⟩ := queryRequest_asks (i := authorIndex) (o := {}) "#"
    ⟨by decide, by decide, by decide⟩ (by decide) hsend fun _ => ⟨_, rfl⟩
  obtain ⟨es, -, hresult, hentries, -⟩ := hasks (by
    rintro ⟨hsort, -⟩
    exact absurd hsort (by decide))
  exact ⟨es, hresult, hcontext, hentries.keys, hentries.limit, hentries.forward⟩

end Template

end TableKeys
