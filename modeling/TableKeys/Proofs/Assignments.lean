/-
# What an assignment leaves to read

An assignment splits its path before the last step and takes that step as a name, whatever it is;
a reference is followed from the left, and an index at the end of a step picks an item. If the
last step is a name and has what comes before it as its parent (`EndsInName`), both mean the same
place, and what was assigned is read back. Otherwise the assignment goes to a place of its own,
and the reference leads to what it led to before (`set_read_back`).

The parent is found again since a finite tree has no way from a map back to itself
(`follow_set`), however many other ways lead to that map.
-/
import TableKeys.Proofs.Arguments
import TableKeys.Proofs.Regions

namespace TableKeys.Template

variable {separator : String} {s : Store} {free : Address → Prop} {v w : Value} {d : Data}
  {m m' : Machine} {path parent name : String}

/-! ## Paths in two parts -/

/-- A path is a single step, or its last step comes after its parent and a point. -/
lemma splitLast_cases (path : String) :
    ('.' ∉ path.toList ∧ splitLast path = ("", path)) ∨
      ∃ parent name, path = parent ++ "." ++ name ∧ '.' ∉ name.toList ∧
        splitLast path = (parent, name) := by
  by_cases hdot : '.' ∈ path.toList
  · right
    obtain ⟨front, back, hreverse, hfront⟩ :=
      List.eq_append_cons_of_mem (List.mem_reverse.mpr hdot)
    have hlist : path.toList = back.reverse ++ '.' :: front.reverse := by
      rw [← List.reverse_reverse path.toList, hreverse]
      simp
    have hpath : path = String.ofList back.reverse ++ "." ++ String.ofList front.reverse := by
      rw [← String.toList_inj, hlist, toList_child]
      simp
    have hname : '.' ∉ (String.ofList front.reverse).toList := by simpa using hfront
    refine ⟨_, _, hpath, hname, ?_⟩
    rw [hpath]
    exact splitLast_child hname
  · exact .inl ⟨hdot, splitLast_of_notMem hdot⟩

lemma follow_null (s : Store) (steps : List (List Char)) : follow s .null steps = .ok .null := by
  cases steps <;> rfl

/-- Steps are followed one after the other. -/
lemma follow_append_eq (s : Store) (v : Value) (steps rest : List (List Char)) :
    follow s v (steps ++ rest) = follow s v steps >>= fun w => follow s w rest := by
  induction steps generalizing v with
  | nil => rfl
  | cons step steps ih =>
    rw [List.cons_append, follow, follow]
    cases hv : v.isNull with
    | true =>
      obtain rfl := Value.eq_null_of_isNull hv
      exact (follow_null s rest).symm
    | false =>
      cases Segment.ofChars step with
      | error f => rfl
      | ok segment => exact ih _

/-- A path that goes on leads where its rest leads from there. -/
lemma resolve_append (s : Store) (bindings : Entries String Value) (path rest : String) :
    resolve s bindings (path ++ "." ++ rest) =
      resolve s bindings path >>= fun w => follow s w (rest.toList.splitOn '.') := by
  have hsplit : (path ++ "." ++ rest).toList.splitOn '.' =
      path.toList.splitOn '.' ++ rest.toList.splitOn '.' := by
    rw [toList_child, List.splitOn_append_cons_self]
  unfold resolve
  rw [hsplit]
  match hpath : path.toList.splitOn '.' with
  | [] => exact absurd hpath (List.splitOn_ne_nil _ _)
  | head :: steps =>
    rw [List.cons_append]
    dsimp only
    cases Segment.ofChars head with
    | error f => rfl
    | ok segment => exact follow_append_eq s _ steps _

/-- A path leads where its last step leads from its parent. -/
lemma resolve_child_eq (s : Store) (bindings : Entries String Value) (hname : '.' ∉ name.toList) :
    resolve s bindings (parent ++ "." ++ name) =
      resolve s bindings parent >>= fun w => follow s w [name.toList] := by
  rw [resolve_append, List.splitOn_eq_singleton hname]

/-- A single step leads to the variable of its name, or to an item of that. -/
lemma resolve_single (s : Store) (bindings : Entries String Value) (hdot : '.' ∉ path.toList) :
    resolve s bindings path = Segment.ofChars path.toList >>= fun segment =>
      .ok (segment.pick ((bindings.get? segment.name).getD .null)) := by
  unfold resolve
  rw [List.splitOn_eq_singleton hdot]
  rfl

/-- A step that is no plain name has a name that is shorter. -/
lemma Segment.name_ne_of_ofChars {segment : Segment}
    (h : Segment.ofChars name.toList = .ok segment)
    (hplain : Segment.ofChars name.toList ≠ .ok { name }) : segment.name ≠ name := by
  intro hsame
  have hshort : segment = { name := String.ofList name.toList } ∨ ∃ c rest digits,
      name.toList = c :: rest ∧ indexDigits? (rest.dropWhile Text.isWord) = some digits ∧
        segment.name = String.ofList (c :: rest.takeWhile Text.isWord) := by
    unfold ofChars at h
    split at h
    · exact .inl (Except.ok.inj h).symm
    · rename_i c rest hchars
      split at h
      · split at h
        · rename_i digits hdigits
          cases hindex : readIndex digits with
          | error f =>
            rw [hindex] at h
            cases h
          | ok i =>
            rw [hindex] at h
            cases h
            exact .inr ⟨c, rest, digits, hchars, hdigits, rfl⟩
        · exact .inl (Except.ok.inj h).symm
      · exact .inl (Except.ok.inj h).symm
  rcases hshort with rfl | ⟨c, rest, digits, hchars, hdigits, hsegment⟩
  · rw [String.ofList_toList] at h
    exact hplain h
  · -- if the name were all of the step, there would be nothing left for the index
    have hlist : c :: rest.takeWhile Text.isWord = c :: rest := by
      rw [← hchars, ← hsame, hsegment, String.toList_ofList]
    have hword : ∀ d ∈ rest, Text.isWord d = true :=
      List.takeWhile_eq_self_iff.mp (List.cons.inj hlist).2
    rw [List.dropWhile_eq_nil_iff.mpr hword] at hdigits
    cases hdigits

/-! ## Ways through finite trees -/

lemma getD_get?_small {κ : Type} [BEq κ] [SizeOf κ] (es : Entries κ Data) (k : κ) :
    (es.get? k).getD .null = .null ∨ sizeOf ((es.get? k).getD .null) < sizeOf es := by
  induction es with
  | nil => exact .inl rfl
  | cons e es ih =>
    obtain ⟨j, d⟩ := e
    have hhead := sizeOf_lt_of_mem_entries (List.mem_cons_self (a := (j, d)) (l := es))
    rw [Entries.get?_cons]
    split
    · exact .inr hhead
    · exact ih.imp_right fun hlt => hlt.trans (by
      simp only [List.cons.sizeOf_spec, Prod.mk.sizeOf_spec]
      omega)

/-- A member is a smaller part, if it is there. -/
lemma member_small (d : Data) (name : String) :
    d.member name = .null ∨ sizeOf (d.member name) < sizeOf d := by
  cases d with
  | map es =>
    refine (getD_get?_small es (.text name)).imp_right fun hlt => ?_
    rw [Data.map.sizeOf_spec]
    exact hlt.trans (by omega)
  | record kind fs =>
    rw [Data.member]
    cases kind.field? name with
    | none => exact .inl rfl
    | some field =>
      refine (getD_get?_small fs field).imp_right fun hlt => ?_
      rw [Data.record.sizeOf_spec]
      exact hlt.trans (by omega)
  | _ => exact .inl rfl

/-- An item is a smaller part, if it is there. -/
lemma item_small (d : Data) (i : Nat) : d.item i = .null ∨ sizeOf (d.item i) < sizeOf d := by
  cases d with
  | list ds =>
    rw [Data.item, List.getD_eq_getElem?_getD]
    cases hi : ds[i]? with
    | none => exact .inl rfl
    | some d' =>
      have hlt := List.sizeOf_lt_of_mem (List.mem_of_getElem? hi)
      rw [Data.list.sizeOf_spec]
      exact .inr (hlt.trans (by omega))
  | _ => exact .inl rfl

lemma Shows.pick (h : Shows s free d v) (segment : Segment) :
    segment.pick v = .null ∨ ∃ d', Shows s free d' (segment.pick v) ∧ sizeOf d' ≤ sizeOf d := by
  unfold Segment.pick
  split
  · rename_i i _
    have hitem := h.item i
    rcases item_small d i with hnull | hlt
    · rw [hnull] at hitem
      exact .inl (shows_scalar.mp hitem)
    · exact .inr ⟨_, hitem, hlt.le⟩
  · exact .inr ⟨d, h, le_rfl⟩

/-- One step from a value that shows data leads to nothing or to a smaller part of them. -/
lemma Shows.step (h : Shows s free d v) (segment : Segment) :
    segment.pick (s.member v segment.name) = .null ∨
      ∃ d', Shows s free d' (segment.pick (s.member v segment.name)) ∧ sizeOf d' < sizeOf d := by
  have hmember := h.member segment.name
  rcases member_small d segment.name with hnull | hlt
  · rw [hnull] at hmember
    rw [shows_scalar.mp hmember]
    exact .inl segment.pick_null
  · rcases hmember.pick segment with hnull | ⟨d', hd', hle⟩
    · exact .inl hnull
    · exact .inr ⟨d', hd', hle.trans_lt hlt⟩

lemma Shows.follow (h : Shows s free d v) {steps : List (List Char)}
    (hw : Template.follow s v steps = .ok w) :
    w = .null ∨ ∃ d', Shows s free d' w ∧ sizeOf d' ≤ sizeOf d := by
  induction steps generalizing v d with
  | nil =>
    obtain rfl := Except.ok.inj hw
    exact .inr ⟨d, h, le_rfl⟩
  | cons step steps ih =>
    rw [Template.follow] at hw
    split at hw
    · obtain rfl := Except.ok.inj hw
      exact .inr ⟨d, h, le_rfl⟩
    · obtain ⟨segment, -, hrest⟩ := exists_of_bind_eq_ok hw
      rcases h.step segment with hnull | ⟨d', hd', hlt⟩
      · rw [hnull, follow_null] at hrest
        exact .inl (Except.ok.inj hrest).symm
      · rcases ih hd' hrest with hnull | ⟨d'', hd'', hle⟩
        · exact .inl hnull
        · exact .inr ⟨d'', hd'', hle.trans hlt.le⟩

lemma Store.member_set_of_ne {a : Address} (hne : v ≠ .ref a) (c : Cell) (name : String) :
    (s.set a c).member v name = s.member v name := by
  cases v with
  | ref b =>
    have hget : (s.set a c).get? b = s.get? b :=
      get?_set_of_ne (fun hab => hne (by rw [hab])) c
    simp only [Store.member, Store.entries?, Store.record?, hget]
  | _ => rfl

/-- **The way to a map does not lead through it**, so it is the same after the map has changed. -/
theorem follow_set {a : Address} (h : Shows s free d v) {steps : List (List Char)}
    (hsteps : follow s v steps = .ok (.ref a)) (c : Cell) :
    follow (s.set a c) v steps = .ok (.ref a) := by
  induction steps generalizing v d with
  | nil => exact hsteps
  | cons step steps ih =>
    rw [follow] at hsteps ⊢
    split at hsteps
    · rename_i hnull
      obtain rfl := Value.eq_null_of_isNull hnull
      cases hsteps
    · rename_i hnull
      obtain ⟨segment, hstep, hrest⟩ := exists_of_bind_eq_ok hsteps
      rw [if_neg hnull, hstep]
      rcases h.step segment with hnothing | ⟨d', hd', hlt⟩
      · rw [hnothing, follow_null] at hrest
        cases hrest
      · -- what is reached from here is smaller than what is here
        have hne : v ≠ .ref a := by
          rintro rfl
          obtain ⟨d'', hd'', hle⟩ := (hd'.follow hrest).resolve_left (by simp)
          rw [hd''.unique h] at hle
          omega
        show follow (s.set a c) (segment.pick ((s.set a c).member v segment.name)) steps = _
        rw [Store.member_set_of_ne hne]
        exact ih hd' hrest

/-- Every variable has a value that shows a finite tree of data. -/
def Machine.Finite (m : Machine) : Prop :=
  ∀ name v, m.bindings.get? name = some v → ∃ d, Shows m.store (fun _ => True) d v

/-- A path to a map leads there after the map has changed. -/
lemma Machine.Finite.resolve_set {a : Address} (hm : m.Finite)
    (h : resolve m.store m.bindings path = .ok (.ref a)) (c : Cell) :
    resolve (m.store.set a c) m.bindings path = .ok (.ref a) := by
  unfold resolve at h ⊢
  split at h
  · cases h
  · rename_i head steps hpath
    obtain ⟨segment, hhead, hsteps⟩ := exists_of_bind_eq_ok h
    rw [hhead]
    show follow (m.store.set a c) _ steps = _
    cases hvariable : m.bindings.get? segment.name with
    | none =>
      rw [hvariable, Option.getD_none, Segment.pick_null, follow_null] at hsteps
      cases hsteps
    | some v =>
      rw [hvariable, Option.getD_some] at hsteps
      rw [Option.getD_some]
      obtain ⟨d, hd⟩ := hm _ v hvariable
      rcases hd.pick segment with hnull | ⟨d', hd', -⟩
      · rw [hnull, follow_null] at hsteps
        cases hsteps
      · exact follow_set hd' hsteps c

/-- Evaluating an expression leaves what is there as it is. -/
lemma Machine.Finite.extends_of_eval {e : Expr} (hm : m.Finite)
    (h : e.eval separator m = .ok v m') : m.Extends m' := by
  have hinside : ∀ name v, m.bindings.get? name = some v → v.Inside _ m.store :=
    fun name v hv => (hm name v hv).choose_spec.inside
  have hkeeps : Run.Keeps _ _ m (e.eval separator) :=
    keeps_eval e fun p _ => leadsInside_of_bindings hinside p
  exact (hkeeps m v m' (.refl m) (m.store.sealed_of_shows _) h).1

lemma Machine.Finite.extend (hm : m.Finite) (h : m.Extends m') : m'.Finite := by
  intro name v hv
  rw [h.bindings] at hv
  obtain ⟨d, hd⟩ := hm name v hv
  exact ⟨d, hd.extend h.store fun _ _ _ => trivial⟩

/-! ## Writing -/

/-- The cell after a value is written under a name, if it can hold one there. -/
def Cell.write? (c : Cell) (name : String) (v : Value) : Option Cell :=
  match c with
  | .map entries => some (.map (entries.put (.text name) v))
  | .record kind fields => (kind.field? name).map fun field => .record kind (fields.put field v)

/-- An assignment without parent gives a variable a value; any other one writes into the cell of
the parent. -/
lemma assign_ok (h : assign path v m = .ok () m') :
    ((splitLast path).1 = "" ∧
        m' = { m with bindings := m.bindings.put (splitLast path).2 v }) ∨
      ∃ a c c', (splitLast path).1 ≠ "" ∧
        resolve m.store m.bindings (splitLast path).1 = .ok (.ref a) ∧
        m.store.get? a = some c ∧ c.write? (splitLast path).2 v = some c' ∧
        m' = { m with store := m.store.set a c' } := by
  obtain ⟨parent, name, hsplit⟩ : ∃ parent name, splitLast path = (parent, name) := ⟨_, _, rfl⟩
  rw [assign, hsplit] at h
  rw [hsplit]
  dsimp only at h ⊢
  split at h
  · rename_i hempty
    cases h
    exact .inl ⟨by simpa using hempty, rfl⟩
  · rename_i hempty
    obtain ⟨target, m₁, hresolve, hrest⟩ := of_bind_ok h
    obtain ⟨htarget, rfl⟩ := of_resolve_ok hresolve
    rw [Run.get_bind] at hrest
    right
    cases target with
    | ref address =>
      cases hentries : m.store.entries? (.ref address) with
      | some entries =>
        obtain ⟨_, ⟨⟩, hcell⟩ := Store.entries?_eq_some.mp hentries
        simp only [hentries] at hrest
        rw [putEntry_apply hcell] at hrest
        cases hrest
        exact ⟨address, _, _, by simpa using hempty, htarget, hcell, rfl, rfl⟩
      | none =>
        cases hrecord : m.store.record? (.ref address) with
        | none =>
          simp only [hentries, hrecord] at hrest
          cases hrest
        | some kindFields =>
          obtain ⟨kind, fields⟩ := kindFields
          obtain ⟨_, ⟨⟩, hcell⟩ := Store.record?_eq_some.mp hrecord
          simp only [hentries, hrecord] at hrest
          cases hfield : kind.field? name with
          | none =>
            rw [hfield] at hrest
            cases hrest
          | some field =>
            simp only [hfield] at hrest
            rw [putField_apply hcell] at hrest
            cases hrest
            exact ⟨address, _, _, by simpa using hempty, htarget, hcell,
              by rw [Cell.write?, hfield]; rfl, rfl⟩
    | _ => cases hrest

/-- What was written is read under its name. -/
lemma Store.member_write {a : Address} {c c' : Cell} (hc : s.get? a = some c)
    (h : c.write? name v = some c') : (s.set a c').member (.ref a) name = v := by
  have hget : (s.set a c').get? a = some c' := Store.get?_set_self hc
  cases c with
  | map entries =>
    obtain rfl := Option.some.inj h
    rw [Store.member_map hget, Entries.get?_put_text, if_pos rfl]
    rfl
  | record kind fields =>
    obtain ⟨field, hfield, rfl⟩ := Option.map_eq_some_iff.mp h
    rw [Store.member_record hget, hfield, Option.bind_some, Entries.get?_put_self]
    rfl

/-- Names of fields have no index. -/
lemma ofChars_of_field? {kind : RecordKind} {field : Field} (h : kind.field? name = some field) :
    Segment.ofChars name.toList = .ok { name } := by
  have hnamed : field.isNamed name = true := by
    have hfound := List.find?_some h
    exact hfound
  have hmem : name ∈ field.names := by simpa [Field.isNamed] using hnamed
  have hall : ∀ field : Field, ∀ name ∈ field.names, isSchemaName name = true := by
    intro field
    cases field <;> decide
  exact Segment.ofChars_schemaName (hall field name hmem)

/-- Under a name that is no plain step only a map can be written, and what is read under another
name stays. -/
lemma Store.member_write_of_ne {a : Address} {c c' : Cell} (hc : s.get? a = some c)
    (h : c.write? name v = some c') (hplain : Segment.ofChars name.toList ≠ .ok { name })
    {other : String} (hother : other ≠ name) :
    (s.set a c').member (.ref a) other = s.member (.ref a) other := by
  have hget : (s.set a c').get? a = some c' := Store.get?_set_self hc
  cases c with
  | map entries =>
    obtain rfl := Option.some.inj h
    rw [Store.member_map hget, Store.member_map hc, Entries.get?_put_text, if_neg hother.symm]
  | record kind fields =>
    obtain ⟨field, hfield, -⟩ := Option.map_eq_some_iff.mp h
    exact absurd (ofChars_of_field? hfield) hplain

/-! ## Reading what was assigned -/

/-- The last step is a name without an index, and it is all of the path where nothing comes before
it. -/
structure EndsInName (path : String) : Prop where
  plain : Segment.ofChars (splitLast path).2.toList = .ok { name := (splitLast path).2 }
  whole : (splitLast path).1 = "" → (splitLast path).2 = path

/-- One step from a cell leads to a member, or to an item of that. -/
lemma follow_ref (s : Store) (a : Address) (step : List Char) :
    follow s (.ref a) [step] = Segment.ofChars step >>= fun segment =>
      .ok (segment.pick (s.member (.ref a) segment.name)) := rfl

lemma resolve_assigned (hm : m.Finite) (h : assign path v m = .ok () m') (hends : EndsInName path) :
    resolve m'.store m'.bindings path = .ok v := by
  rcases assign_ok h with ⟨hparent, rfl⟩ | ⟨a, c, c', hparent, hresolve, hc, hwrite, rfl⟩
  · have hwhole := hends.whole hparent
    have hplain := hends.plain
    have hdot : '.' ∉ path.toList := by
      rcases splitLast_cases path with ⟨hdot, -⟩ | ⟨parent, name, hpath, hname, hsplit⟩
      · exact hdot
      · rw [hsplit] at hwhole
        exact hwhole ▸ hname
    rw [hwhole] at hplain ⊢
    rw [resolve_single _ _ hdot, hplain]
    show Except.ok ((Entries.get? (m.bindings.put path v) path).getD .null) = _
    rw [Entries.get?_put_self, Option.getD_some]
  · rcases splitLast_cases path with ⟨-, hsplit⟩ | ⟨parent, name, hpath, hname, hsplit⟩
    · exact absurd (by rw [hsplit]) hparent
    · have hplain := hends.plain
      rw [hsplit] at hresolve hwrite hplain
      rw [hpath, resolve_child_eq _ _ hname, hm.resolve_set hresolve c']
      show follow (m.store.set a c') (.ref a) [name.toList] = _
      rw [follow_ref, hplain]
      exact congrArg Except.ok (Store.member_write hc hwrite)

/-- An assignment to another place than the path leads to does not change what is found there. -/
lemma resolve_beside (hm : m.Finite) (h : assign path v m = .ok () m')
    (hends : ¬ EndsInName path) (hpoint : path ≠ ".") :
    resolve m'.store m'.bindings path = resolve m.store m.bindings path := by
  rcases splitLast_cases path with ⟨hdot, hsplit⟩ | ⟨parent, name, hpath, hname, hsplit⟩
  · -- an item of a variable is read, and a variable of another name is written
    have hplain : Segment.ofChars path.toList ≠ .ok { name := path } := by
      intro hplain
      exact hends ⟨by rwa [hsplit], fun _ => by rw [hsplit]⟩
    rcases assign_ok h with ⟨-, rfl⟩ | ⟨_, _, _, hparent, -⟩
    · rw [hsplit, resolve_single _ _ hdot, resolve_single _ _ hdot]
      cases hsegment : Segment.ofChars path.toList with
      | error f => rfl
      | ok segment =>
        have hne := Segment.name_ne_of_ofChars hsegment hplain
        show Except.ok (segment.pick ((Entries.get? (m.bindings.put path v) segment.name).getD
          .null)) = _
        rw [Entries.get?_put_of_ne _ _ (by simpa using hne.symm)]
        rfl
    · rw [hsplit] at hparent
      exact absurd rfl hparent
  · rcases assign_ok h with ⟨hparent, rfl⟩ | ⟨a, c, c', hparent, hresolve, hc, hwrite, rfl⟩
    · -- the parent is the variable without a name
      rw [hsplit] at hparent ⊢
      obtain rfl : parent = "" := hparent
      have hne : name ≠ "" := by
        rintro rfl
        exact hpoint hpath
      have hempty : ∀ bindings : Entries String Value, resolve m.store bindings "" =
          .ok ((bindings.get? "").getD .null) := fun bindings => rfl
      rw [hpath, resolve_child_eq _ _ hname, resolve_child_eq _ _ hname, hempty, hempty,
        Entries.get?_put_of_ne _ _ (by simpa using hne)]
    · rw [hsplit] at hparent hresolve hwrite
      have hplain : Segment.ofChars name.toList ≠ .ok { name } := by
        intro hplain
        exact hends ⟨by rwa [hsplit], fun hnone => absurd (by rwa [hsplit] at hnone) hparent⟩
      rw [hpath, resolve_child_eq _ _ hname, resolve_child_eq _ _ hname,
        hm.resolve_set hresolve c', hresolve]
      show follow (m.store.set a c') (.ref a) [name.toList] =
        follow m.store (.ref a) [name.toList]
      rw [follow_ref, follow_ref]
      cases hsegment : Segment.ofChars name.toList with
      | error f => rfl
      | ok segment =>
        have hne := Segment.name_ne_of_ofChars hsegment hplain
        show Except.ok (segment.pick ((m.store.set a c').member (.ref a) segment.name)) = _
        rw [Store.member_write_of_ne hc hwrite hplain hne]
        rfl

/-- **An assignment is read back exactly where its path ends in a name.** If every variable has a
finite tree for its value and an assignment goes well, the expression had a value; the path then
leads to that value if it ends in a name, and to what it led to before the assignment if it does
not. The point alone is a path of its own: it assigns to the variable without a name and leads to
the member without a name of that variable. -/
theorem set_read_back {e : Expr} (hm : m.Finite)
    (h : (Stmt.set (.ref path) e).exec separator m = .ok () m') :
    ∃ v m₁, e.eval separator m = .ok v m₁ ∧
      (EndsInName path → (Expr.ref path).eval separator m' = .ok v m') ∧
      (¬ EndsInName path → path ≠ "." →
        resolve m'.store m'.bindings path = resolve m₁.store m₁.bindings path) ∧
      (path = "." → (Expr.ref path).eval separator m' = .ok (m'.store.member v "") m') := by
  rw [Stmt.exec, Expr.pathOf, Run.bind_ok (Run.pure_apply _)] at h
  obtain ⟨v, m₁, heval, hrest⟩ := of_bind_ok h
  rw [pathText, Run.bind_ok (Run.pure_apply _)] at hrest
  have hm₁ : m₁.Finite := hm.extend (hm.extends_of_eval heval)
  refine ⟨v, m₁, heval, fun hends => eval_ref (resolve_assigned hm₁ hrest hends),
    resolve_beside hm₁ hrest, ?_⟩
  rintro rfl
  rcases assign_ok hrest with ⟨-, rfl⟩ | ⟨_, _, _, hparent, -⟩
  · refine eval_ref ?_
    show follow m₁.store ((Entries.get? (m₁.bindings.put "" v) "").getD .null) [[]] = _
    rw [Entries.get?_put_self, Option.getD_some, follow]
    cases hv : v.isNull with
    | true =>
      obtain rfl := Value.eq_null_of_isNull hv
      rfl
    | false => rfl
  · exact absurd (by decide) hparent

/-- A machine with a list of tags as its only variable. -/
def tagged : Machine where
  store := {}
  context := .null
  bindings := [("tags", .list [.text "a", .text "b"])]

/-- The first tag is not replaced. -/
theorem set_read_back_tags :
    ∃ m', (Stmt.set (.ref "tags[0]") (.text "z")).exec "#" tagged = .ok () m' ∧
      resolve m'.store m'.bindings "tags[0]" = .ok (.text "a") := by
  have hfinite : tagged.Finite := by
    intro name v hv
    obtain rfl : Value.list [.text "a", .text "b"] = v := by
      rw [tagged, Entries.get?_cons] at hv
      split at hv
      · exact Option.some.inj hv
      · cases hv
    exact ⟨.list [.text "a", .text "b"], by simp [Shows, ShowsItems]⟩
  have hruns : (Stmt.set (.ref "tags[0]") (.text "z")).exec "#" tagged =
      .ok () { tagged with bindings := tagged.bindings.put "tags[0]" (.text "z") } := by
    rw [Stmt.exec, Expr.pathOf, Run.bind_ok (Run.pure_apply _),
      Run.bind_ok (eval_text_plain (by decide)), pathText, Run.bind_ok (Run.pure_apply _)]
    rfl
  have hends : ¬ EndsInName "tags[0]" := by
    intro hends
    have hindexed : Segment.ofChars "tags[0]".toList =
        .ok { name := "tags", index := some 0 } := rfl
    have hplain := hends.plain
    rw [splitLast_of_notMem (by decide), hindexed] at hplain
    simp at hplain
  obtain ⟨v, m₁, heval, -, hbeside, -⟩ := set_read_back hfinite hruns
  refine ⟨_, hruns, ?_⟩
  rw [hbeside hends (by decide)]
  rw [eval_text_plain (by decide)] at heval
  cases heval
  rfl

end TableKeys.Template
