/-
# Formulas

A formula is made of atoms, by joining two formulas so that both have to hold or one of them, and
by negation. There is also the formula that asks for nothing: it has no truth, and what is joined
with it is not changed. So a formula has a truth just if it has an atom (`truth?_eq_none_iff`).

Two formulas are alike (`Formula.Alike`) if they have the same truth under every assignment and the
same atoms in the same order. Up to this, joining is associative and `nothing` is its unit.
-/
import Mathlib.Data.List.Basic
import Mathlib.Data.Option.Basic

namespace TableKeys.Filter

/-- How two parts are joined: both have to hold, or one of them. -/
inductive Connective where
  | all
  | any
deriving DecidableEq, Repr

/-- The truth of two parts together. -/
def Connective.apply : Connective → Bool → Bool → Bool
  | all => and
  | any => or

/-- A formula over atoms. -/
inductive Formula (α : Type) where
  /-- What asks for nothing. -/
  | nothing
  | atom (a : α)
  | join (k : Connective) (f g : Formula α)
  | negation (f : Formula α)
deriving Repr

namespace Formula

variable {α β : Type}

/-- The truth of a formula; what asks for nothing is neither true nor false. -/
def truth? (σ : α → Bool) : Formula α → Option Bool
  | nothing => none
  | atom a => some (σ a)
  | join k f g => Option.merge k.apply (f.truth? σ) (g.truth? σ)
  | negation f => (f.truth? σ).map not

/-- The atoms of a formula, from left to right. -/
def atoms : Formula α → List α
  | nothing => []
  | atom a => [a]
  | join _ f g => f.atoms ++ g.atoms
  | negation f => f.atoms

/-- The formula with other atoms. -/
def map (t : α → β) : Formula α → Formula β
  | nothing => nothing
  | atom a => atom (t a)
  | join k f g => join k (f.map t) (g.map t)
  | negation f => negation (f.map t)

/-- The formula of the atoms, if all are there. -/
def sequence? : Formula (Option α) → Option (Formula α)
  | nothing => some nothing
  | atom a? => a?.map atom
  | join k f g => do
    let f ← f.sequence?
    let g ← g.sequence?
    return join k f g
  | negation f => f.sequence?.map negation

/-- Formulas joined one after the other; none ask for nothing. -/
def joinAll (k : Connective) (fs : List (Formula α)) : Formula α :=
  fs.foldr (join k) nothing

lemma truth?_map (t : α → β) (σ : β → Bool) (f : Formula α) :
    (f.map t).truth? σ = f.truth? (σ ∘ t) := by
  induction f with
  | nothing => rfl
  | atom a => rfl
  | join k f g ihf ihg => rw [map, truth?, truth?, ihf, ihg]
  | negation f ih => rw [map, truth?, truth?, ih]

lemma atoms_map (t : α → β) (f : Formula α) : (f.map t).atoms = f.atoms.map t := by
  induction f with
  | nothing => rfl
  | atom a => rfl
  | join k f g ihf ihg => rw [map, atoms, atoms, ihf, ihg, List.map_append]
  | negation f ih => rw [map, atoms, atoms, ih]

/-- **A formula has a truth if it has an atom.** -/
theorem truth?_eq_none_iff (σ : α → Bool) (f : Formula α) :
    f.truth? σ = none ↔ f.atoms = [] := by
  induction f with
  | nothing => simp [truth?, atoms]
  | atom a => simp [truth?, atoms]
  | join k f g ihf ihg =>
    rw [truth?, atoms, List.append_eq_nil_iff, ← ihf, ← ihg]
    cases f.truth? σ <;> cases g.truth? σ <;> simp [Option.merge]
  | negation f ih => simpa [truth?, atoms] using ih

lemma sequence?_map_some (f : Formula α) : (f.map some).sequence? = some f := by
  induction f with
  | nothing => rfl
  | atom a => rfl
  | join k f g ihf ihg => simp [map, sequence?, ihf, ihg]
  | negation f ih => simp [map, sequence?, ih]

/-- A formula whose atoms are all there. -/
lemma exists_map_some {f : Formula (Option α)} (h : ∀ a ∈ f.atoms, a.isSome = true) :
    ∃ g : Formula α, f = g.map some := by
  induction f with
  | nothing => exact ⟨nothing, rfl⟩
  | atom a =>
    obtain ⟨b, rfl⟩ := Option.isSome_iff_exists.mp (h a (by simp [atoms]))
    exact ⟨atom b, rfl⟩
  | join k f g ihf ihg =>
    obtain ⟨hf, hg⟩ := List.forall_mem_append.mp h
    obtain ⟨f', rfl⟩ := ihf hf
    obtain ⟨g', rfl⟩ := ihg hg
    exact ⟨join k f' g', rfl⟩
  | negation f ih =>
    obtain ⟨f', rfl⟩ := ih h
    exact ⟨negation f', rfl⟩

/-! ## Formulas that ask for the same -/

/-- The formulas have the same truth under every assignment, and the same atoms in order. -/
structure Alike (f g : Formula α) : Prop where
  truth : ∀ σ, f.truth? σ = g.truth? σ
  atoms : f.atoms = g.atoms

namespace Alike

variable {f f' g g' h : Formula α} {k : Connective}

lemma refl (f : Formula α) : f.Alike f :=
  ⟨fun _ => rfl, rfl⟩

lemma of_eq (h : f = g) : f.Alike g :=
  h ▸ refl f

lemma symm (h : f.Alike g) : g.Alike f :=
  ⟨fun σ => (h.truth σ).symm, h.atoms.symm⟩

lemma trans (hfg : f.Alike g) (hgh : g.Alike h) : f.Alike h :=
  ⟨fun σ => (hfg.truth σ).trans (hgh.truth σ), hfg.atoms.trans hgh.atoms⟩

lemma join (hf : f.Alike f') (hg : g.Alike g') : (join k f g).Alike (join k f' g') := by
  constructor
  · intro σ
    rw [truth?, truth?, hf.truth, hg.truth]
  · rw [Formula.atoms, Formula.atoms, hf.atoms, hg.atoms]

lemma negation (h : f.Alike g) : (negation f).Alike (negation g) := by
  constructor
  · intro σ
    rw [truth?, truth?, h.truth]
  · exact h.atoms

lemma nothing_join (k : Connective) (f : Formula α) : (Formula.join k nothing f).Alike f := by
  constructor
  · intro σ
    rw [truth?, truth?]
    cases f.truth? σ <;> rfl
  · rfl

lemma join_nothing (k : Connective) (f : Formula α) : (Formula.join k f nothing).Alike f := by
  constructor
  · intro σ
    rw [truth?, truth?.eq_1]
    cases f.truth? σ <;> rfl
  · exact List.append_nil _

lemma join_assoc (k : Connective) (f g h : Formula α) :
    (Formula.join k (Formula.join k f g) h).Alike (Formula.join k f (Formula.join k g h)) := by
  constructor
  · intro σ
    rw [truth?, truth?, truth?, truth?]
    cases f.truth? σ <;> cases g.truth? σ <;> cases h.truth? σ <;>
      simp [Option.merge]
    cases k
    · exact Bool.and_assoc _ _ _
    · exact Bool.or_assoc _ _ _
  · exact List.append_assoc _ _ _

lemma negation_nothing : (Formula.negation (nothing : Formula α)).Alike nothing :=
  ⟨fun _ => rfl, rfl⟩

/-- Formulas with the same atoms once all of them are there. -/
lemma of_map_some (h : (f.map some).Alike (g.map some)) : f.Alike g := by
  constructor
  · intro σ
    have hσ := h.truth fun a? => a?.any σ
    rwa [truth?_map, truth?_map] at hσ
  · have hatoms := h.atoms
    rw [atoms_map, atoms_map] at hatoms
    exact List.map_injective_iff.mpr (Option.some_injective α) hatoms

lemma joinAll_singleton (k : Connective) (f : Formula α) : (joinAll k [f]).Alike f :=
  join_nothing k f

lemma joinAll_append (k : Connective) (fs gs : List (Formula α)) :
    (joinAll k (fs ++ gs)).Alike (Formula.join k (joinAll k fs) (joinAll k gs)) := by
  induction fs with
  | nil => exact (nothing_join k _).symm
  | cons f fs ih =>
    have hcons : (joinAll k (f :: (fs ++ gs))).Alike
        (Formula.join k f (Formula.join k (joinAll k fs) (joinAll k gs))) := join (refl f) ih
    exact hcons.trans (join_assoc k f _ _).symm

end Alike

end Formula

end TableKeys.Filter
