/-
# Decimal numbers in the place of binary ones

Before anything is stored or asked for, decimal numbers are put in the place of binary ones
(`Data.withDecimals`). Doing it again changes nothing, so the stored form is the one that the data
has anyway (`Data.stored_withDecimals`). What stands for nothing goes on standing for nothing: the
shortest digits of a number are zero for zero only (`Binary64.isZero_written`).
-/
import TableKeys.Proofs.Accepted

namespace TableKeys

namespace Number.Binary64

/-- Of two neighbours on a grid, zero is not taken. -/
lemma neighbour_ne_zero {p q : Bool} {k down up digits : Nat}
    (h : (if (p && k != 0) && q then
        some (if down < up then k else if up < down then k + 1 else k + k % 2)
      else if p && k != 0 then some k
      else if q then some (k + 1)
      else none) = some digits) : digits ≠ 0 := by
  simp only [Bool.and_eq_true, bne_iff_ne] at h
  split at h
  · rename_i hinside
    obtain rfl := Option.some.inj h
    split
    · exact hinside.1.2
    · split <;> omega
  · split at h
    · rename_i hinside
      obtain rfl := Option.some.inj h
      exact hinside.2
    · split at h
      · obtain rfl := Option.some.inj h
        exact Nat.succ_ne_zero _
      · cases h

lemma onGrid?_ne_zero {mantissa : Nat} {exponent power : Int} {digits : Nat}
    (h : onGrid? mantissa exponent power = some digits) : digits ≠ 0 :=
  neighbour_ne_zero h

lemma shortest_ne_zero {mantissa : Nat} (h : mantissa ≠ 0) (exponent : Int) :
    (shortest mantissa exponent).1 ≠ 0 := by
  unfold shortest
  dsimp only
  cases hfound : (List.range 18).findSome? _ with
  | none => exact h
  | some found =>
    obtain ⟨places, -, hplaces⟩ := List.exists_of_findSome?_eq_some hfound
    obtain ⟨digits, hdigits, rfl⟩ := Option.map_eq_some_iff.mp hplaces
    exact onGrid?_ne_zero hdigits

/-- **A number is written as zero just if it is zero.** -/
theorem isZero_written (x : Binary64) : x.written.isZero = x.isZero := by
  cases x with
  | finite negative mantissa exponent =>
    rw [written]
    by_cases hzero : mantissa = 0
    · rw [if_pos hzero]
      dsimp only
      split <;> simp [Decimal.isZero, isZero, hzero]
    · have hdigits := shortest_ne_zero hzero exponent
      have hshifted (n : Nat) : (shortest mantissa exponent).1 * Nat.pow 10 n ≠ 0 :=
        Nat.mul_ne_zero hdigits (Nat.pow_pos (by decide)).ne'
      have hmantissa : (mantissa == 0) = false := beq_eq_false_iff_ne.mpr hzero
      rw [if_neg hzero]
      dsimp only
      split
      · exact (beq_eq_false_iff_ne.mpr (hshifted _)).trans hmantissa.symm
      · exact (beq_eq_false_iff_ne.mpr hdigits).trans hmantissa.symm
  | infinite negative => rfl
  | nan mark => rfl

end Number.Binary64

namespace Data

lemma withDecimals_list (ds : List Data) :
    (Data.list ds).withDecimals = .list (ds.map withDecimals) := by
  rw [withDecimals, withDecimalsItems_eq]

lemma withDecimals_map (es : Entries MapKey Data) :
    (Data.map es).withDecimals = .map (es.mapValues withDecimals) := by
  rw [withDecimals, withDecimalsEntries_eq]

/-- Decimal numbers are put in the place of binary ones only once. -/
theorem withDecimals_withDecimals (d : Data) : d.withDecimals.withDecimals = d.withDecimals := by
  induction d using Data.induction with
  | scalar a => cases a <;> rfl
  | list ds ih =>
    rw [withDecimals_list, withDecimals_list, List.map_map]
    exact congrArg Data.list (List.map_congr_left ih)
  | map es ih =>
    rw [withDecimals_map, withDecimals_map, Entries.mapValues, Entries.mapValues, List.map_map]
    exact congrArg Data.map (List.map_congr_left fun e he => congrArg (Prod.mk e.1) (ih e he))
  | record kind fs _ => rfl
  | pair name d _ => rfl

/-- **The stored form has decimal numbers in any case.** -/
theorem stored_withDecimals (d : Data) : d.withDecimals.stored = d.stored := by
  rw [stored, withDecimals_withDecimals, stored]

/-- What stands for nothing is no matter of binary or decimal numbers. -/
lemma isNothing_withDecimals (d : Data) : d.withDecimals.isNothing = d.isNothing := by
  match d with
  | .scalar (.float x) => exact x.isZero_written
  | .scalar .null | .scalar (.bool _) | .scalar (.int _) | .scalar (.decimal _) => rfl
  | .scalar (.text _) | .scalar (.bytes _) => rfl
  | .list ds =>
    rw [withDecimals_list]
    exact List.isEmpty_map
  | .map es =>
    rw [withDecimals_map]
    exact List.isEmpty_map
  | .record _ _ | .pair _ _ => rfl

/-- The members are stored as they would be without decimal numbers. -/
lemma mapM_stored_members (d : Data) :
    (d.withDecimals.members?.getD []).mapM stored = (d.members?.getD []).mapM stored := by
  match d with
  | .scalar .null | .scalar (.bool _) | .scalar (.int _) | .scalar (.float _) => rfl
  | .scalar (.decimal _) | .scalar (.text _) | .scalar (.bytes _) => rfl
  | .list ds =>
    rw [withDecimals_list]
    show (ds.map withDecimals).mapM stored = ds.mapM stored
    rw [List.mapM_map]
    exact mapM_congr_of_mem fun d _ => stored_withDecimals d
  | .map es =>
    have hkeys : (Data.map es).withDecimals.members? = (Data.map es).members? := by
      rw [withDecimals_map]
      simp [members?, Entries.mapValues]
    rw [hkeys]
  | .record _ _ | .pair _ _ => rfl

end Data

end TableKeys
