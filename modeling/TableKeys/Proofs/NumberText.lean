/-
# Numbers read back from their text

A number is written as digits, perhaps with a point among them or padded with zeros, and perhaps
with an exponent after a mark. Reading takes the digits before the point, those after it and the
exponent one after the other, so what is written is read back with the same digits and the same
power of ten (`NumberStyle.readNumeral?_write`), up to the zeros that a whole number ends in.

* `Decimal.ofText?_text`: a decimal number comes back as it was;
* `Binary64.ofText?_text`: the text of a binary number denotes the decimal number that it is stored
  as.
-/
import TableKeys.Number.Binary64
import TableKeys.Proofs.SchemaName
import Mathlib.Algebra.Group.Nat.Defs
import Mathlib.Data.List.Basic

namespace TableKeys.Number

open TableKeys.Text

/-! ## Rows of digits -/

lemma digitValue?_of_isDigit {c : Char} (h : c.isDigit = true) :
    digitValue? c = some (c.toNat - '0'.toNat) := by
  rw [digitValue?, if_pos (toNat_lt_of_isDigit h), if_pos h]

lemma isDecimalDigit_of_isDigit {c : Char} (h : c.isDigit = true) : isDecimalDigit c = true := by
  rw [isDecimalDigit, digitValue?_of_isDigit h]
  rfl

lemma toLower_of_isDigit {c : Char} (h : c.isDigit = true) : c.toLower = c :=
  forall_ascii (P := fun c => c.isDigit = true → c.toLower = c)
    (by decide) (toNat_lt_of_isDigit h) h

/-- The characters are digits of ASCII. -/
def AllDigits (ds : List Char) : Prop :=
  ∀ c ∈ ds, c.isDigit = true

namespace AllDigits

variable {ds es : List Char}

lemma append (h : AllDigits ds) (h' : AllDigits es) : AllDigits (ds ++ es) :=
  List.forall_mem_append.mpr ⟨h, h'⟩

lemma take (h : AllDigits ds) (n : Nat) : AllDigits (ds.take n) :=
  fun c hc => h c (List.mem_of_mem_take hc)

lemma drop (h : AllDigits ds) (n : Nat) : AllDigits (ds.drop n) :=
  fun c hc => h c (List.mem_of_mem_drop hc)

lemma toDigits (n : Nat) : AllDigits (Nat.toDigits 10 n) :=
  fun _ hc => Nat.isDigit_of_mem_toDigits (by decide) (by decide) hc

lemma zeros (n : Nat) : AllDigits (List.replicate n '0') := by
  intro c hc
  rw [List.eq_of_mem_replicate hc]
  decide

lemma map_toLower (h : AllDigits ds) : ds.map Char.toLower = ds := by
  have hsame : ds.map Char.toLower = ds.map id :=
    List.map_congr_left fun c hc => toLower_of_isDigit (h c hc)
  rwa [List.map_id] at hsame

lemma isDecimalDigit (h : AllDigits ds) : ∀ c ∈ ds, Text.isDecimalDigit c = true :=
  fun c hc => isDecimalDigit_of_isDigit (h c hc)

lemma digitsValue_eq (h : AllDigits ds) : digitsValue ds = Nat.ofDigitChars 10 ds 0 := by
  rw [digitsValue, Nat.ofDigitChars_eq_foldl]
  refine List.foldl_ext _ _ _ fun n c hc => ?_
  rw [digitValue?_of_isDigit (h c hc), Option.getD_some]

end AllDigits

lemma digitsValue_toDigits (n : Nat) : digitsValue (Nat.toDigits 10 n) = n := by
  rw [(AllDigits.toDigits n).digitsValue_eq, Nat.ofDigitChars_ten_toDigits]

/-- Zeros before the digits do not count. -/
lemma digitsValue_zeros_toDigits (k n : Nat) :
    digitsValue (List.replicate k '0' ++ Nat.toDigits 10 n) = n := by
  rw [((AllDigits.zeros k).append (.toDigits n)).digitsValue_eq, Nat.ofDigitChars_append,
    Nat.ofDigitChars_replicate_zero, Nat.mul_zero, Nat.ofDigitChars_ten_toDigits]

/-- Zeros after the digits count as powers of ten. -/
lemma digitsValue_toDigits_zeros (k n : Nat) :
    digitsValue (Nat.toDigits 10 n ++ List.replicate k '0') = n * 10 ^ k := by
  rw [((AllDigits.toDigits n).append (.zeros k)).digitsValue_eq, Nat.ofDigitChars_append,
    Nat.ofDigitChars_replicate_zero, Nat.ofDigitChars_ten_toDigits, Nat.mul_comm]

/-! ## The parts of a numeral -/

/-- Where the digits end, there is no other digit. -/
def EndsDigits (rest : List Char) : Prop :=
  ∀ c ∈ rest.head?, isDecimalDigit c = false

lemma EndsDigits.takeWhile {rest : List Char} (h : EndsDigits rest) :
    rest.takeWhile isDecimalDigit = [] := by
  cases rest with
  | nil => rfl
  | cons c cs => rw [List.takeWhile_cons, h c (by simp)]; rfl

lemma EndsDigits.dropWhile {rest : List Char} (h : EndsDigits rest) :
    rest.dropWhile isDecimalDigit = rest := by
  cases rest with
  | nil => rfl
  | cons c cs => rw [List.dropWhile_cons, h c (by simp)]; rfl

variable {whole fraction rest : List Char}

/-- A numeral with a point. -/
lemma readNumeral?_point (hwhole : AllDigits whole) (hne : whole ≠ [])
    (hfraction : AllDigits fraction) (hrest : EndsDigits rest) :
    readNumeral? (whole ++ '.' :: (fraction ++ rest)) =
      (readExponent? rest).map fun exponent : Int =>
        (digitsValue (whole ++ fraction), exponent - fraction.length) := by
  have hpoint : EndsDigits ('.' :: (fraction ++ rest)) := by simp [EndsDigits]; decide
  have hempty : whole.isEmpty = false := by simpa using hne
  have htake : (fraction ++ rest).takeWhile isDecimalDigit = fraction := by
    rw [List.takeWhile_append_of_pos hfraction.isDecimalDigit, hrest.takeWhile, List.append_nil]
  have hdrop : (fraction ++ rest).dropWhile isDecimalDigit = rest := by
    rw [List.dropWhile_append_of_pos hfraction.isDecimalDigit, hrest.dropWhile]
  rw [readNumeral?, List.takeWhile_append_of_pos hwhole.isDecimalDigit, hpoint.takeWhile,
    List.dropWhile_append_of_pos hwhole.isDecimalDigit, hpoint.dropWhile, List.append_nil]
  simp [hempty, htake, hdrop]

/-- A numeral without a point. -/
lemma readNumeral?_whole (hwhole : AllDigits whole) (hne : whole ≠ []) (hrest : EndsDigits rest)
    (hpoint : rest.head? ≠ some '.') :
    readNumeral? (whole ++ rest) =
      (readExponent? rest).map fun exponent => (digitsValue whole, exponent) := by
  have hempty : whole.isEmpty = false := by simpa using hne
  have hnone : ∀ more, rest ≠ '.' :: more := by
    rintro more rfl
    exact hpoint rfl
  rw [readNumeral?, List.takeWhile_append_of_pos hwhole.isDecimalDigit, hrest.takeWhile,
    List.dropWhile_append_of_pos hwhole.isDecimalDigit, hrest.dropWhile, List.append_nil]
  simp [hempty]

lemma exponentForm_eq (width : Nat) (n : Int) : exponentForm width n =
    (if n < 0 then '-' else '+') ::
      (List.replicate (width - (Nat.toDigits 10 n.natAbs).length) '0' ++
        Nat.toDigits 10 n.natAbs) := rfl

/-- An exponent is read back. -/
lemma readExponent?_exponentForm (width : Nat) (n : Int) :
    readExponent? ('e' :: exponentForm width n) = some n := by
  rw [exponentForm_eq]
  have hvalue := digitsValue_zeros_toDigits (width - (Nat.toDigits 10 n.natAbs).length) n.natAbs
  have hdigits := ((AllDigits.zeros (width - (Nat.toDigits 10 n.natAbs).length)).append
    (.toDigits n.natAbs)).isDecimalDigit
  have hne : List.replicate (width - (Nat.toDigits 10 n.natAbs).length) '0' ++
      Nat.toDigits 10 n.natAbs ≠ [] := by simp [Nat.toDigits_ne_nil]
  revert hvalue hdigits hne
  generalize List.replicate _ '0' ++ Nat.toDigits 10 n.natAbs = ds
  intro hvalue hdigits hne
  have hall : (!ds.isEmpty && ds.all isDecimalDigit) = true := by simpa [hne] using hdigits
  by_cases hn : n < 0
  · have hsigned : -(n.natAbs : Int) = n := by omega
    simp only [readExponent?, if_pos hn, splitSign, hall, hvalue]
    exact congrArg some hsigned
  · have hsigned : (n.natAbs : Int) = n := by omega
    simp only [readExponent?, if_neg hn, splitSign, hall, hvalue]
    exact congrArg some hsigned

lemma map_toLower_exponentForm (width : Nat) (n : Int) :
    (exponentForm width n).map Char.toLower = exponentForm width n := by
  have hdigits := (AllDigits.zeros (width - (Nat.toDigits 10 n.natAbs).length)).append
    (.toDigits n.natAbs)
  rw [exponentForm_eq, List.map_cons, hdigits.map_toLower]
  split <;> rfl

/-! ## What is written -/

lemma endsDigits_nil : EndsDigits [] := by
  simp [EndsDigits]

lemma endsDigits_mark (cs : List Char) : EndsDigits ('e' :: cs) := by
  simp [EndsDigits]
  decide

section Written

variable {c : Nat} {e : Int}

/-- The digits that a whole number ends in after its point. -/
def NumberStyle.padding (style : NumberStyle) : Nat :=
  if style.wholeWithPoint then 1 else 0

/-- The digits and the power of ten that a written number denotes: those of the number, but for
the zeros that are written after a whole number. -/
def NumberStyle.denoted (style : NumberStyle) (c : Nat) (e : Int) : Nat × Int :=
  if style.positional e (e + (Nat.toDigits 10 c).length) && 0 ≤ e then
    (c * 10 ^ (e.toNat + style.padding), -style.padding)
  else (c, e)

lemma length_toDigits_pos (c : Nat) : 0 < (Nat.toDigits 10 c).length :=
  List.length_pos_iff.mpr Nat.toDigits_ne_nil

/-- Digits without places after the point, padded with zeros. -/
lemma readNumeral?_padded (wholeWithPoint : Bool) (c k : Nat) :
    readNumeral? (Nat.toDigits 10 c ++ List.replicate k '0' ++
        if wholeWithPoint then ['.', '0'] else []) =
      some (c * 10 ^ (k + if wholeWithPoint then 1 else 0),
        -((if wholeWithPoint then 1 else 0 : Nat) : Int)) := by
  have hdigits : AllDigits (Nat.toDigits 10 c ++ List.replicate k '0') :=
    (AllDigits.toDigits c).append (.zeros k)
  have hne : Nat.toDigits 10 c ++ List.replicate k '0' ≠ [] := by simp [Nat.toDigits_ne_nil]
  cases wholeWithPoint with
  | true =>
    have hread := readNumeral?_point hdigits hne (.zeros 1) endsDigits_nil
    have hvalue : digitsValue (Nat.toDigits 10 c ++ List.replicate k '0' ++
        List.replicate 1 '0') = c * 10 ^ (k + 1) := by
      rw [List.append_assoc, List.replicate_append_replicate, digitsValue_toDigits_zeros]
    rw [hvalue] at hread
    exact hread
  | false =>
    have hread := readNumeral?_whole hdigits hne endsDigits_nil (by simp)
    rw [digitsValue_toDigits_zeros, List.append_nil] at hread
    rw [if_neg (by decide), List.append_nil, hread]
    rfl

/-- **The positional form is read back.** -/
lemma readNumeral?_positionalForm (wholeWithPoint : Bool) (c : Nat) (e : Int) :
    readNumeral? (positionalForm wholeWithPoint (Nat.toDigits 10 c)
        (e + (Nat.toDigits 10 c).length)) =
      some (if 0 ≤ e then
        (c * 10 ^ (e.toNat + if wholeWithPoint then 1 else 0),
          -((if wholeWithPoint then 1 else 0 : Nat) : Int))
      else (c, e)) := by
  have hlength := length_toDigits_pos c
  have hdigits := AllDigits.toDigits c
  generalize hds : Nat.toDigits 10 c = ds at hlength hdigits
  have hc : digitsValue ds = c := hds ▸ digitsValue_toDigits c
  rw [positionalForm]
  by_cases hpoint : e + ds.length ≤ 0
  · -- all digits stand after the point
    have hread := readNumeral?_point (.zeros 1) (by simp)
      ((AllDigits.zeros (-(e + ds.length)).toNat).append hdigits) endsDigits_nil
    have hvalue := digitsValue_zeros_toDigits (1 + (-(e + ds.length)).toNat) c
    rw [hds, ← List.replicate_append_replicate, List.append_assoc] at hvalue
    rw [hvalue, List.append_nil] at hread
    rw [if_pos hpoint, if_neg (by omega)]
    refine hread.trans (congrArg some (congrArg (Prod.mk c) ?_))
    rw [List.length_append, List.length_replicate]
    omega
  · rw [if_neg hpoint]
    by_cases hwhole : ds.length ≤ (e + ds.length).toNat
    · -- all digits stand before the point
      have hzeros : (e + ds.length).toNat - ds.length = e.toNat := by omega
      have hsign : 0 ≤ e := by omega
      rw [if_pos hwhole, if_pos hsign, hzeros, ← hds]
      exact readNumeral?_padded wholeWithPoint c e.toNat
    · -- the point stands among the digits
      have htake : ds.take (e + ds.length).toNat ≠ [] := by
        rw [← List.length_pos_iff, List.length_take]
        omega
      have hread := readNumeral?_point (hdigits.take _) htake
        (hdigits.drop (e + ds.length).toNat) endsDigits_nil
      rw [List.take_append_drop, List.append_nil, hc] at hread
      rw [if_neg hwhole, if_neg (by omega)]
      refine hread.trans (congrArg some (congrArg (Prod.mk c) ?_))
      rw [List.length_drop]
      omega

/-- **The exponent form is read back.** -/
lemma readNumeral?_scientificForm {style : NumberStyle} (hmark : style.mark.toLower = 'e') (c : Nat)
    (e : Int) :
    readNumeral? ((scientificForm style (Nat.toDigits 10 c)
        (e + (Nat.toDigits 10 c).length)).map Char.toLower) = some (c, e) := by
  have hlength := length_toDigits_pos c
  have hdigits := AllDigits.toDigits c
  generalize hds : Nat.toDigits 10 c = ds at hlength hdigits
  have hc : digitsValue ds = c := hds ▸ digitsValue_toDigits c
  have htake := hdigits.take 1
  have hdrop := hdigits.drop 1
  have hne : ds.take 1 ≠ [] := by
    rw [← List.length_pos_iff, List.length_take]
    omega
  have hexponent := readExponent?_exponentForm style.exponentWidth (e + ds.length - 1)
  rw [scientificForm]
  simp only [List.map_append, List.map_cons, htake.map_toLower, hmark, map_toLower_exponentForm]
  by_cases hsingle : ds.length ≤ 1
  · have hread := readNumeral?_whole htake hne
      (endsDigits_mark (exponentForm style.exponentWidth (e + ds.length - 1))) (by simp)
    rw [hexponent, List.take_of_length_le hsingle, hc] at hread
    rw [if_pos hsingle, List.map_nil, List.append_nil, List.take_of_length_le hsingle]
    refine hread.trans (congrArg some (congrArg (Prod.mk c) ?_))
    omega
  · have hread := readNumeral?_point htake hne hdrop
      (endsDigits_mark (exponentForm style.exponentWidth (e + ds.length - 1)))
    rw [hexponent, List.take_append_drop, hc] at hread
    have hpoint : Char.toLower '.' = '.' := by decide
    rw [if_neg hsingle, List.map_cons, hpoint, hdrop.map_toLower, List.append_assoc,
      List.cons_append]
    refine hread.trans (congrArg some (congrArg (Prod.mk c) ?_))
    rw [List.length_drop]
    omega

/-- The characters of numbers: digits, the point, signs and the mark. -/
def NumberStyle.IsNumeric (style : NumberStyle) (d : Char) : Prop :=
  d.isDigit = true ∨ d = '.' ∨ d = '+' ∨ d = '-' ∨ d = style.mark

lemma isNumeric_positionalForm (style : NumberStyle) {wholeWithPoint : Bool} {ds : List Char}
    (hds : AllDigits ds) (point : Int) :
    ∀ d ∈ positionalForm wholeWithPoint ds point, style.IsNumeric d := by
  have hdigit : ∀ {es : List Char}, AllDigits es → ∀ d ∈ es, style.IsNumeric d :=
    fun hes d hd => .inl (hes d hd)
  have hpoint : style.IsNumeric '.' := .inr (.inl rfl)
  have hzero : style.IsNumeric '0' := .inl (by decide)
  rw [positionalForm]
  split
  · exact List.forall_mem_cons.mpr ⟨hzero, List.forall_mem_cons.mpr ⟨hpoint,
      hdigit ((AllDigits.zeros _).append hds)⟩⟩
  · split
    · refine List.forall_mem_append.mpr ⟨hdigit (hds.append (.zeros _)), ?_⟩
      split
      · exact List.forall_mem_cons.mpr ⟨hpoint, List.forall_mem_singleton.mpr hzero⟩
      · exact fun d hd => absurd hd List.not_mem_nil
    · exact List.forall_mem_append.mpr ⟨hdigit (hds.take _),
        List.forall_mem_cons.mpr ⟨hpoint, hdigit (hds.drop _)⟩⟩

lemma map_toLower_positionalForm (wholeWithPoint : Bool) {ds : List Char} (hds : AllDigits ds)
    (point : Int) : (positionalForm wholeWithPoint ds point).map Char.toLower =
      positionalForm wholeWithPoint ds point := by
  have hpoint : Char.toLower '.' = '.' := by decide
  have hzero : Char.toLower '0' = '0' := by decide
  rw [positionalForm]
  split
  · rw [List.map_append, List.map_cons, List.map_cons, hds.map_toLower, hpoint, hzero,
      (AllDigits.zeros _).map_toLower]
  · split
    · rw [List.map_append, (hds.append (.zeros _)).map_toLower]
      split <;> rfl
    · rw [List.map_append, List.map_cons, (hds.take _).map_toLower, (hds.drop _).map_toLower,
        hpoint]

lemma isNumeric_scientificForm (style : NumberStyle) {ds : List Char} (hds : AllDigits ds)
    (point : Int) : ∀ d ∈ scientificForm style ds point, style.IsNumeric d := by
  have hdigit : ∀ {es : List Char}, AllDigits es → ∀ d ∈ es, style.IsNumeric d :=
    fun hes d hd => .inl (hes d hd)
  rw [scientificForm, exponentForm_eq]
  refine List.forall_mem_append.mpr ⟨List.forall_mem_append.mpr
    ⟨hdigit (hds.take _), ?_⟩, List.forall_mem_cons.mpr
      ⟨.inr (.inr (.inr (.inr rfl))), List.forall_mem_cons.mpr
        ⟨?_, hdigit ((AllDigits.zeros _).append (.toDigits _))⟩⟩⟩
  · split
    · exact fun d hd => absurd hd List.not_mem_nil
    · exact List.forall_mem_cons.mpr ⟨.inr (.inl rfl),
        hdigit (hds.drop _)⟩
  · split
    · exact .inr (.inr (.inr (.inl rfl)))
    · exact .inr (.inr (.inl rfl))

lemma NumberStyle.isNumeric_write (style : NumberStyle) (c : Nat) (e : Int) :
    ∀ d ∈ style.write c e, style.IsNumeric d := by
  rw [write]
  split
  · exact isNumeric_positionalForm style (.toDigits c) _
  · exact isNumeric_scientificForm style (.toDigits c) _

/-- A number begins with a digit. -/
lemma NumberStyle.write_eq_cons (style : NumberStyle) (c : Nat) (e : Int) :
    ∃ d ds, style.write c e = d :: ds ∧ d.isDigit = true := by
  obtain ⟨d, ds, hds⟩ := List.exists_cons_of_ne_nil (Nat.toDigits_ne_nil (n := c) (b := 10))
  have hd : d.isDigit = true := AllDigits.toDigits c d (by simp [hds])
  rw [write, hds]
  split
  · rw [positionalForm]
    split
    · exact ⟨'0', _, rfl, by decide⟩
    · split
      · exact ⟨d, _, rfl, hd⟩
      · rename_i hpoint _
        obtain ⟨n, hn⟩ : ∃ n, (e + (d :: ds).length).toNat = n + 1 :=
          ⟨(e + (d :: ds).length).toNat - 1, by omega⟩
        rw [hn, List.take_succ_cons]
        exact ⟨d, _, rfl, hd⟩
  · exact ⟨d, _, rfl, hd⟩

/-- **What is written is read back.** -/
theorem NumberStyle.readNumeral?_write {style : NumberStyle} (hmark : style.mark.toLower = 'e')
    (c : Nat) (e : Int) :
    readNumeral? ((style.write c e).map Char.toLower) = some (style.denoted c e) := by
  rw [write, denoted]
  cases hpositional : style.positional e (e + (Nat.toDigits 10 c).length) with
  | true =>
    rw [if_pos rfl, map_toLower_positionalForm _ (.toDigits c), readNumeral?_positionalForm]
    simp [padding]
  | false =>
    rw [if_neg (by decide), readNumeral?_scientificForm hmark]
    simp

end Written

/-! ## Texts of numbers -/

lemma trim_eq_self {p : Char → Bool} {cs : List Char} (h : ∀ c ∈ cs, p c = false) :
    trim p cs = cs := by
  have hdrop : ∀ {ds : List Char}, (∀ c ∈ ds, p c = false) → ds.dropWhile p = ds := by
    intro ds hds
    cases ds with
    | nil => rfl
    | cons d ds => rw [List.dropWhile_cons, hds d (by simp)]; rfl
  have hreverse : ∀ c ∈ cs.reverse, p c = false := fun c hc => h c (List.mem_reverse.mp hc)
  rw [trim, hdrop h, hdrop hreverse, List.reverse_reverse]

lemma isBlank_of_isDigit {c : Char} (h : c.isDigit = true) : isBlank c = false :=
  forall_ascii (P := fun c => c.isDigit = true → isBlank c = false)
    (by decide) (toNat_lt_of_isDigit h) h

lemma ne_of_isDigit {c d : Char} (h : c.isDigit = true) (hd : d.isDigit = false) : c ≠ d := by
  rintro rfl
  rw [h] at hd
  cases hd

/-- No character of a number is blank, and none is an underscore. -/
lemma NumberStyle.IsNumeric.facts {style : NumberStyle}
    (hmark : style.mark = 'e' ∨ style.mark = 'E') {d : Char} (h : style.IsNumeric d) :
    isBlank d = false ∧ d.toLower ≠ '_' := by
  rcases h with h | rfl | rfl | rfl | rfl
  · exact ⟨isBlank_of_isDigit h, by rw [toLower_of_isDigit h]; exact ne_of_isDigit h (by decide)⟩
  · decide
  · decide
  · decide
  · rcases hmark with hmark | hmark <;> rw [hmark] <;> decide

namespace Decimal

/-- What begins with a digit is no infinity and no not-a-number. -/
lemma ofUnsigned?_of_isDigit (negative : Bool) {d : Char} (h : d.isDigit = true) (ds : List Char) :
    ofUnsigned? negative (d :: ds) =
      (readNumeral? (d :: ds)).map fun number => finite negative number.1 number.2 := by
  have hi : d ≠ 'i' := ne_of_isDigit h (by decide)
  have hn : 'n' ≠ d := (ne_of_isDigit h (by decide)).symm
  have hs : 's' ≠ d := (ne_of_isDigit h (by decide)).symm
  rw [ofUnsigned?, if_neg (by simp [hi]), if_neg (by simp [List.isPrefixOf, hn]),
    if_neg (by simp [List.isPrefixOf, hs])]

lemma splitSign_signText (negative : Bool) {d : Char} (h : d.isDigit = true) (ds : List Char) :
    splitSign (signText negative ++ d :: ds) = (negative, d :: ds) := by
  cases negative with
  | true => rfl
  | false =>
    have hminus : d ≠ '-' := ne_of_isDigit h (by decide)
    have hplus : d ≠ '+' := ne_of_isDigit h (by decide)
    show splitSign (d :: ds) = _
    simp [splitSign, hminus, hplus]

/-- **The text of a number is read as what it denotes.** -/
theorem ofText?_write {style : NumberStyle} (hmark : style.mark = 'e' ∨ style.mark = 'E')
    (negative : Bool) (c : Nat) (e : Int) :
    ofText? (String.ofList (signText negative ++ style.write c e)) =
      some (finite negative (style.denoted c e).1 (style.denoted c e).2) := by
  have hsign : ∀ d ∈ signText negative, style.IsNumeric d := by
    cases negative with
    | true => exact List.forall_mem_singleton.mpr (.inr (.inr (.inr (.inl rfl))))
    | false => exact fun d hd => absurd hd List.not_mem_nil
  have hnumeric := List.forall_mem_append.mpr ⟨hsign, style.isNumeric_write c e⟩
  have hlower : (signText negative).map Char.toLower = signText negative := by
    cases negative <;> rfl
  have hword : (plainWord isBlank (String.ofList (signText negative ++ style.write c e))).filter
      (· != '_') = signText negative ++ (style.write c e).map Char.toLower := by
    rw [plainWord, String.toList_ofList, trim_eq_self fun d hd => (NumberStyle.IsNumeric.facts hmark
      (hnumeric d hd)).1, List.filter_eq_self.mpr, List.map_append, hlower]
    intro lower hmem
    obtain ⟨d, hd, rfl⟩ := List.mem_map.mp hmem
    simpa using (NumberStyle.IsNumeric.facts hmark (hnumeric d hd)).2
  have hexponent : style.mark.toLower = 'e' := by
    rcases hmark with hmark | hmark <;> rw [hmark] <;> decide
  have hread := NumberStyle.readNumeral?_write hexponent c e
  obtain ⟨d, ds, hwrite, hd⟩ := style.write_eq_cons c e
  rw [ofText?, hword]
  rw [hwrite, List.map_cons, toLower_of_isDigit hd] at hread ⊢
  rw [splitSign_signText negative hd]
  show ofUnsigned? negative (d :: ds.map Char.toLower) = _
  rw [ofUnsigned?_of_isDigit negative hd, hread]
  rfl

/-- **A decimal number is read back as it was.** -/
theorem ofText?_text (negative : Bool) (c : Nat) (e : Int) :
    ofText? (finite negative c e).text = some (finite negative c e) := by
  have hdenoted : style.denoted c e = (c, e) := by
    rw [NumberStyle.denoted]
    split
    · rename_i h
      -- only whole numbers are written without exponent and without places after the point
      have hwhole : e ≤ 0 ∧ 0 ≤ e := by
        simp only [style, Bool.and_eq_true, decide_eq_true_eq] at h
        exact ⟨h.1.1, h.2⟩
      obtain rfl : e = 0 := by omega
      simp [NumberStyle.padding, style]
    · rfl
  rw [text, ofText?_write (.inr rfl), hdenoted]

end Decimal

/-- **The text of a binary number denotes the decimal number that it is stored as.** -/
theorem Binary64.ofText?_text (negative : Bool) (mantissa : Nat) (exponent : Int) :
    Decimal.ofText? (finite negative mantissa exponent).text =
      some (finite negative mantissa exponent).written := by
  rw [text, written]
  generalize (if mantissa = 0 then ((0, 0) : Nat × Int) else shortest mantissa exponent) = number
  obtain ⟨digits, power⟩ := number
  dsimp only
  rw [Decimal.ofText?_write (.inl rfl), NumberStyle.denoted, Decimal.width]
  split <;> rfl

end TableKeys.Number
