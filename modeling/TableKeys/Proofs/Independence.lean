/-
# Types are transformed independently

Two steps that are confined to parts of a session can be taken in either order if neither may
change what the other one uses (`Confined.swap`). Types that share no resolver of an operation,
and none of which has the name of a root type, are such parts. So their declarations may come in
any order, as long as the indexes of each type keep theirs (`transform_perm`).
-/
import TableKeys.Proofs.Placement

namespace TableKeys.Session

open Template

/-! ## Sessions with the same contents -/

/-- The sessions have the same table for each type and the same resolver at each place. The order in
which these came and what was noted on the way may differ. -/
structure SameContents (s r : Session) : Prop where
  setting : s.SameSetting r
  table : ∀ type, s.tables.get? type = r.tables.get? type
  resolver : ∀ p, s.resolvers.get? p = r.resolvers.get? p

namespace SameContents

variable {s s' r r' : Session}

lemma refl (s : Session) : s.SameContents s :=
  ⟨.refl s, fun _ => rfl, fun _ => rfl⟩

lemma trans (h : s.SameContents r) (h' : r.SameContents r') : s.SameContents r' :=
  ⟨h.setting.trans h'.setting, fun type => (h.table type).trans (h'.table type),
    fun p => (h.resolver p).trans (h'.resolver p)⟩

lemma agree (h : s.SameContents r) (f : Footprint) : f.Agree s r :=
  ⟨h.setting, h.table f.type, fun p _ => h.resolver p⟩

end SameContents

namespace Footprint

variable {f g : Footprint} {s s' r r' : Session}

/-- Two parts of a session are the same afterwards: the footprint of a step, and what is outside. -/
lemma Agree.sameContents (hagree : f.Agree s' r') (hs : f.Frame s s') (hr : f.Frame r r')
    (h : s.SameContents r) : s'.SameContents r' where
  setting := hagree.setting
  table type := by
    by_cases htype : type = f.type
    · rw [htype, hagree.table]
    · rw [hs.table type htype, hr.table type htype, h.table]
  resolver p := by
    by_cases hp : f.Uses p
    · exact hagree.resolver p hp
    · rw [hs.resolver p fun hw => hp hw.uses, hr.resolver p fun hw => hp hw.uses, h.resolver]

/-- Neither part may change what the other one uses. -/
structure Apart (f g : Footprint) (s : Session) : Prop where
  type : f.type ≠ g.type
  left : ∀ p, f.Writes s p → ¬ g.Uses p
  right : ∀ p, g.Writes s p → ¬ f.Uses p

namespace Apart

lemma symm (h : f.Apart g s) : g.Apart f s :=
  ⟨h.type.symm, h.right, h.left⟩

/-- What one part changes does not matter to the other. -/
lemma agree (h : f.Apart g s) (hframe : f.Frame s s') : g.Agree s s' where
  setting := hframe.setting
  table := (hframe.table g.type h.type.symm).symm
  resolver p hp := (hframe.resolver p fun hw => h.left p hw hp).symm

/-- A part gets no more places to change by what happens in the other. -/
lemma writes (h : f.Apart g s) (hframe : f.Frame s s') {p : String × String}
    (hp : g.Writes s' p) : g.Writes s p := by
  refine hp.imp_right fun ⟨hserves, hhas⟩ => ⟨hserves, ?_⟩
  have hsame := (h.agree hframe).resolver p (.inr hserves)
  rw [Entries.has, hsame]
  exact hhas

/-- Parts stay apart while something happens in a third part. -/
lemma frame {e : Footprint} (h : f.Apart g s) (hf : e.Apart f s) (hg : e.Apart g s)
    (hframe : e.Frame s s') : f.Apart g s' :=
  ⟨h.type, fun p hp => h.left p (hf.writes hframe hp),
    fun p hp => h.right p (hg.writes hframe hp)⟩

end Apart

end Footprint

/-! ## Steps in either order -/

section Steps

variable {f g : Footprint} {x y : Step Unit} {s s' r s₁ s₂ : Session}

/-- A confined step goes the same way in sessions with the same contents. -/
lemma Confined.congr (hx : Confined f x) (hs : s.schema = f.schema) (h : s.SameContents r)
    (hrun : x s = .ok () s') : ∃ r', x r = .ok () r' ∧ s'.SameContents r' := by
  obtain ⟨hframe, hagree⟩ := hx s () s' hs hrun
  obtain ⟨r', hr', hsame⟩ := hagree r (h.agree f)
  have hr : r.schema = f.schema := h.setting.schema ▸ hs
  exact ⟨r', hr', hsame.sameContents hframe (hx r () r' hr hr').1 h⟩

/-- **Steps that are apart can be taken in either order.** -/
theorem Confined.swap (hx : Confined f x) (hy : Confined g y) (hf : s.schema = f.schema)
    (hg : s.schema = g.schema) (hapart : f.Apart g s) (h₁ : x s = .ok () s₁)
    (h₂ : y s₁ = .ok () s₂) :
    ∃ r₁ r₂, y s = .ok () r₁ ∧ x r₁ = .ok () r₂ ∧ s₂.SameContents r₂ := by
  obtain ⟨hframe₁, hagree₁⟩ := hx s () s₁ hf h₁
  have hg₁ : s₁.schema = g.schema := hframe₁.setting.schema ▸ hg
  obtain ⟨hframe₂, hagree₂⟩ := hy s₁ () s₂ hg₁ h₂
  -- the second step does not mind that the first one has not been taken
  have hback : g.Agree s₁ s := by
    have h := hapart.agree hframe₁
    exact ⟨h.setting.symm, h.table.symm, fun p hp => (h.resolver p hp).symm⟩
  obtain ⟨r₁, hr₁, hsame₂⟩ := hagree₂ s hback
  have hframe₁' := (hy s () r₁ hg hr₁).1
  -- nor does the first one mind that the second one has
  obtain ⟨r₂, hr₂, hsame₁⟩ := hagree₁ r₁ (hapart.symm.agree hframe₁')
  have hf₁ : r₁.schema = f.schema := hframe₁'.setting.schema ▸ hf
  have hframe₂' := (hx r₁ () r₂ hf₁ hr₂).1
  refine ⟨r₁, r₂, hr₁, hr₂, ?_, ?_, ?_⟩
  · exact hsame₂.setting.trans hframe₂'.setting
  · -- one step makes the table, in both orders from the same one, and the other spares it
    intro type
    by_cases htype : type = f.type
    · have hne : type ≠ g.type := htype ▸ hapart.type
      rw [hframe₂.table type hne, htype, hsame₁.table]
    · rw [hframe₂'.table type htype]
      by_cases htype' : type = g.type
      · rw [htype', hsame₂.table]
      · rw [hframe₂.table type htype', hframe₁.table type htype, hframe₁'.table type htype']
  · intro p
    by_cases hp : f.Uses p
    · have hnot : ¬ g.Writes s₁ p := fun hw => hapart.right p (hapart.writes hframe₁ hw) hp
      rw [hframe₂.resolver p hnot, hsame₁.resolver p hp]
    · rw [hframe₂'.resolver p fun hw => hp hw.uses]
      by_cases hp' : g.Uses p
      · exact hsame₂.resolver p hp'
      · rw [hframe₂.resolver p fun hw => hp' hw.uses, hframe₁.resolver p fun hw => hp hw.uses,
          hframe₁'.resolver p fun hw => hp' hw.uses]

end Steps

/-! ## Types in any order -/

section Types

variable {ds ds' : List TypeDecls} {s s' r : Session}

lemma transformTypes_congr (hds : ∀ d ∈ ds, d.Proper) (h : s.SameContents r)
    (hrun : transformTypes ds s = .ok () s') :
    ∃ r', transformTypes ds r = .ok () r' ∧ s'.SameContents r' := by
  induction ds generalizing s r with
  | nil =>
    cases hrun
    exact ⟨r, rfl, h⟩
  | cons d ds ih =>
    obtain ⟨_, s₁, hfirst, hrest⟩ := of_bind_ok hrun
    obtain ⟨r₁, hr₁, h₁⟩ := (confined_transformType (hds d (by simp)) s.schema).congr rfl h hfirst
    obtain ⟨r', hr', h'⟩ := ih (fun e he => hds e (by simp [he])) h₁ hrest
    exact ⟨r', (bind_of_ok hr₁).trans hr', h'⟩

/-- The types are apart in a session. -/
def AllApart (ds : List TypeDecls) (s : Session) : Prop :=
  ds.Pairwise fun d e => (d.footprint s.schema).Apart (e.footprint s.schema) s

/-- **Types that are apart may be taken in any order.** -/
theorem transformTypes_perm (hperm : ds.Perm ds') (hds : ∀ d ∈ ds, d.Proper)
    (hapart : AllApart ds s) (hrun : transformTypes ds s = .ok () s') :
    ∃ r', transformTypes ds' s = .ok () r' ∧ s'.SameContents r' := by
  induction hperm generalizing s s' with
  | nil => exact ⟨s', hrun, .refl s'⟩
  | @cons d ds ds' _ ih =>
    obtain ⟨_, s₁, hfirst, hrest⟩ := of_bind_ok hrun
    have hframe := (confined_transformType (hds d (by simp)) s.schema s () s₁ rfl hfirst).1
    -- the other types stay apart while the first one is transformed
    obtain ⟨hd, hds₁⟩ := List.pairwise_cons.mp hapart
    have hapart₁ : AllApart ds s₁ := by
      rw [AllApart, ← hframe.setting.schema]
      exact hds₁.imp_of_mem fun he he' h => h.frame (hd _ he) (hd _ he') hframe
    obtain ⟨r', hr', h'⟩ := ih (fun e he => hds e (by simp [he])) hapart₁ hrest
    exact ⟨r', (bind_of_ok hfirst).trans hr', h'⟩
  | swap d e ds =>
    obtain ⟨_, s₁, hfirst, hrest⟩ := of_bind_ok hrun
    obtain ⟨_, s₂, hsecond, hrest⟩ := of_bind_ok hrest
    have he := (List.pairwise_cons.mp hapart).1 d (by simp)
    obtain ⟨r₁, r₂, hr₁, hr₂, hsame⟩ :=
      (confined_transformType (hds e (by simp)) s.schema).swap
        (confined_transformType (hds d (by simp)) s.schema) rfl rfl he hfirst hsecond
    obtain ⟨r', hr', h'⟩ := transformTypes_congr (fun d' hd' => hds d' (by simp [hd'])) hsame hrest
    exact ⟨r', (bind_of_ok hr₁).trans ((bind_of_ok hr₂).trans hr'), h'⟩
  | @trans ds₁ ds₂ ds₃ hperm _ ih ih' =>
    obtain ⟨r₁, hr₁, h₁⟩ := ih hds hapart hrun
    have hapart₂ : AllApart ds₂ s := hapart.perm hperm Footprint.Apart.symm
    obtain ⟨r', hr', h'⟩ := ih' (fun d hd => hds d (hperm.mem_iff.mpr hd)) hapart₂ hr₁
    exact ⟨r', hr', h₁.trans h'⟩

end Types

/-! ## Declarations in any order -/

section Declarations

variable {ks ks' : List KeyDecl} {is is' : List IndexDecl} {s s' r : Session}

/-- The types of some declarations keep out of each other's way: no resolver serves operations of
two of them, and none has the name of a root type. Tables are kept by type, so no two types have
one. -/
structure Separate (s : Session) (declarations : List KeyDecl) : Prop where
  resolver : ∀ k ∈ declarations, ∀ k' ∈ declarations, k.object.name ≠ k'.object.name →
    ∀ op op' p, s.schema.placeOf k.object op = some p → s.schema.placeOf k'.object op' = some p →
      s.resolvers.has p = false
  root : ∀ k ∈ declarations,
    s.schema.queryType ≠ some k.object.name ∧ s.schema.mutationType ≠ some k.object.name

/-- The resolver of an operation belongs to a root type. -/
lemma rootType_of_placeOf {schema : Schema} {object : ObjectType} {op : Operation}
    {p : String × String} (h : schema.placeOf object op = some p) :
    schema.queryType = some p.1 ∨ schema.mutationType = some p.1 := by
  unfold Schema.placeOf Schema.rootType at h
  split at h
  · rename_i hroot
    split at h
    · cases h
    · cases h
      split at hroot
      · exact .inl hroot
      · exact .inr hroot
  · cases h

lemma serves_declaredOf {schema : Schema} {type : String} {p : String × String} :
    ((declaredOf ks is type).footprint schema).Serves p ↔
      ∃ k ∈ ks ++ is.map IndexDecl.toKeyDecl, k.object.name = type ∧
        ∃ op, schema.placeOf k.object op = some p := by
  constructor
  · rintro ⟨object, hobject, op, hp⟩
    obtain ⟨k, hk, rfl⟩ := List.mem_map.mp hobject
    obtain ⟨hk, hname⟩ := mem_declarations_declaredOf.mp hk
    exact ⟨k, hk, hname, op, hp⟩
  · rintro ⟨k, hk, hname, op, hp⟩
    exact ⟨k.object, List.mem_map_of_mem (mem_declarations_declaredOf.mpr ⟨hk, hname⟩), op, hp⟩

/-- What one type may change no other one uses. -/
lemma Separate.not_uses (h : s.Separate (ks ++ is.map IndexDecl.toKeyDecl))
    {type type' : String} (hne : type ≠ type')
    (htype : ∃ k ∈ ks ++ is.map IndexDecl.toKeyDecl, k.object.name = type)
    (htype' : ∃ k ∈ ks ++ is.map IndexDecl.toKeyDecl, k.object.name = type')
    {p : String × String} (hp : ((declaredOf ks is type).footprint s.schema).Writes s p) :
    ¬ ((declaredOf ks is type').footprint s.schema).Uses p := by
  -- operations belong to root types, and a declared type is none
  have hroot : ∀ declared, (∃ k ∈ ks ++ is.map IndexDecl.toKeyDecl, k.object.name = declared) →
      ∀ object op, s.schema.placeOf object op = some p → p.1 ≠ declared := by
    rintro _ ⟨k, hk, rfl⟩ object op hplace heq
    obtain ⟨hquery, hmutation⟩ := h.root k hk
    rw [← heq] at hquery hmutation
    rcases rootType_of_placeOf hplace with hroot | hroot
    · exact hquery hroot
    · exact hmutation hroot
  rintro (hp' | hserves')
  · rcases hp with hp | ⟨hserves, -⟩
    · exact hne (hp.symm.trans hp')
    · obtain ⟨k, -, -, op, hplace⟩ := serves_declaredOf.mp hserves
      exact hroot type' htype' k.object op hplace hp'
  · obtain ⟨k', hk', hname', op', hplace'⟩ := serves_declaredOf.mp hserves'
    rcases hp with hp | ⟨hserves, hhas⟩
    · exact hroot type htype k'.object op' hplace' hp
    · obtain ⟨k, hk, hname, op, hplace⟩ := serves_declaredOf.mp hserves
      have hnames : k.object.name ≠ k'.object.name := by rwa [hname, hname']
      rw [h.resolver k hk k' hk' hnames op op' p hplace hplace'] at hhas
      cases hhas

/-- Types that keep out of each other's way are apart. -/
lemma Separate.allApart (h : s.Separate (ks ++ is.map IndexDecl.toKeyDecl)) :
    AllApart (byType ks is) s := by
  rw [AllApart, byType_eq, List.pairwise_map]
  refine (declaredTypes_nodup _).imp_of_mem fun htype htype' hne => ?_
  rw [mem_declaredTypes] at htype htype'
  exact ⟨hne, fun p hp => h.not_uses hne htype htype' hp,
    fun p hp => h.not_uses (Ne.symm hne) htype' htype hp⟩

/-- A type that is put into effect has at most one primary key. -/
lemma length_primaryKeys_le {ds : List TypeDecls} (h : transformTypes ds s = .ok () s') :
    ∀ d ∈ ds, d.primaryKeys.length ≤ 1 := by
  induction ds generalizing s with
  | nil => simp
  | cons d ds ih =>
    obtain ⟨_, s₁, hfirst, hrest⟩ := of_bind_ok h
    intro e he
    rcases List.mem_cons.mp he with rfl | he
    · obtain ⟨log, ⟨hk, -⟩ | ⟨k, s₂, hk, -⟩⟩ := transformType_ok hfirst <;> simp [hk]
    · exact ih hrest e he

lemma filter_length_le (h : transform ks is s = .ok () s') (type : String) :
    (ks.filter (·.object.name == type)).length ≤ 1 := by
  by_cases hdeclared : type ∈ declaredTypes (ks ++ is.map IndexDecl.toKeyDecl)
  · exact length_primaryKeys_le h (declaredOf ks is type) (List.mem_map_of_mem hdeclared)
  · have hnone : ks.filter (·.object.name == type) = [] := (declaredOf_undeclared hdeclared).1
    simp [hnone]

lemma eq_of_perm_of_length_le {α : Type} {as bs : List α} (h : as.Perm bs)
    (hlength : as.length ≤ 1) : as = bs := by
  match as with
  | [] => exact h.nil_eq
  | [a] => exact (List.perm_singleton.mp h.symm).symm
  | _ :: _ :: _ => simp at hlength

/-- A rearrangement that keeps the order of the indexes of each type rearranges the types. -/
lemma byType_perm (hkeys : ∀ type, (ks.filter (·.object.name == type)).length ≤ 1)
    (hks : ks.Perm ks') (his : is.Perm is')
    (horder : ∀ type, is.filter (·.object.name == type) = is'.filter (·.object.name == type)) :
    (byType ks is).Perm (byType ks' is') := by
  -- a type has one key at most and its indexes in order, so what is declared for it is the same
  have hdeclared : declaredOf ks is = declaredOf ks' is' := by
    funext type
    have hfilter := eq_of_perm_of_length_le (hks.filter (·.object.name == type)) (hkeys type)
    rw [declaredOf, declaredOf, hfilter, horder]
  have hperm : (ks ++ is.map IndexDecl.toKeyDecl).Perm (ks' ++ is'.map IndexDecl.toKeyDecl) :=
    hks.append (his.map _)
  rw [byType_eq, byType_eq, hdeclared]
  refine List.Perm.map _ ((List.perm_ext_iff_of_nodup (declaredTypes_nodup _)
    (declaredTypes_nodup _)).mpr fun type => ?_)
  simp only [mem_declaredTypes, hperm.mem_iff]

/-- **The order of declarations does not matter.** If declarations of separate types can be put into
effect, so can they in any order that keeps the indexes of each type in theirs, on any session with
the same contents, and the contents are the same afterwards: the table of each type, and at each
place a resolver with the same templates or none. -/
theorem transform_perm (hseparate : s.Separate (ks ++ is.map IndexDecl.toKeyDecl))
    (hks : ks.Perm ks') (his : is.Perm is')
    (horder : ∀ type, is.filter (·.object.name == type) = is'.filter (·.object.name == type))
    (hsame : s.SameContents r) (h : transform ks is s = .ok () s') :
    ∃ r', transform ks' is' r = .ok () r' ∧ s'.SameContents r' := by
  have hperm := byType_perm (filter_length_le h) hks his horder
  have hproper := proper_of_mem_byType ks is
  have hproper' := proper_of_mem_byType ks' is'
  obtain ⟨r₁, hr₁, h₁⟩ := transformTypes_perm hperm hproper hseparate.allApart h
  obtain ⟨r', hr', h'⟩ := transformTypes_congr hproper' hsame hr₁
  exact ⟨r', hr', h₁.trans h'⟩

end Declarations

/-- Notes have an identifier. -/
def noteKey : KeyDecl where
  object := noteType
  partition := { name := "id", typeName := "ID" }
  sort := []
  sort_nodup := List.nodup_nil
  partition_notMem_sort := List.not_mem_nil (a := "id")

/-- Memos and notes are declared by turns, and no mutation for creating memos has to do with
notes. -/
theorem transform_perm_desk :
    ∃ s' r', transform [filingKey, noteKey] [memoIndex memoType, titleIndex] deskSession =
        .ok () s' ∧
      transform [noteKey, filingKey] [titleIndex, memoIndex memoType] deskSession = .ok () r' ∧
      s'.SameContents r' := by
  have hnote : ∀ op, deskSession.schema.placeOf noteType op ≠ some ("Mutation", "createMemo") := by
    intro op
    cases op <;> decide +kernel
  have hobject : ∀ k ∈ [filingKey, noteKey] ++
      [memoIndex memoType, titleIndex].map IndexDecl.toKeyDecl,
      k.object = memoType ∨ k.object = noteType := by
    intro k hk
    simp only [List.map_cons, List.map_nil, List.cons_append, List.nil_append, List.mem_cons,
      List.not_mem_nil, or_false] at hk
    rcases hk with rfl | rfl | rfl | rfl
    · exact .inl rfl
    · exact .inr rfl
    · exact .inl rfl
    · exact .inr rfl
  have hseparate : deskSession.Separate ([filingKey, noteKey] ++
      [memoIndex memoType, titleIndex].map IndexDecl.toKeyDecl) := by
    constructor
    · intro k hk k' hk' hne op op' p hp hp'
      by_contra hhas
      obtain rfl : p = ("Mutation", "createMemo") := by
        by_contra hother
        refine hhas ?_
        show Entries.has [(("Mutation", "createMemo"), _)] p = false
        simp [Entries.has, Entries.get?_cons, Ne.symm hother]
      rcases hobject k hk with hk | hk
      · rcases hobject k' hk' with hk' | hk'
        · exact hne (by rw [hk, hk'])
        · exact hnote op' (hk' ▸ hp')
      · exact hnote op (hk ▸ hp)
    · intro k hk
      rcases hobject k hk with hk | hk <;> rw [hk] <;> exact ⟨by decide, by decide⟩
  have horder : ∀ type, [memoIndex memoType, titleIndex].filter (·.object.name == type) =
      [titleIndex, memoIndex memoType].filter (·.object.name == type) := by
    intro type
    by_cases hmemo : "Memo" = type
    · subst hmemo
      rfl
    · have hskip : ((memoIndex memoType).object.name == type) = false := beq_false_of_ne hmemo
      simp [List.filter_cons, hskip]
  have hok : memoPartition? [filingKey, noteKey] [memoIndex memoType, titleIndex] =
      some "status" := by decide +kernel
  unfold memoPartition? at hok
  cases hrun : transform [filingKey, noteKey] [memoIndex memoType, titleIndex] deskSession with
  | error e s' =>
    rw [hrun] at hok
    cases hok
  | ok u s' =>
    obtain ⟨r', hr', hsame⟩ := transform_perm hseparate (List.Perm.swap _ _ _)
      (List.Perm.swap _ _ _) horder (.refl _) hrun
    exact ⟨s', r', rfl, hr', hsame⟩

end TableKeys.Session
