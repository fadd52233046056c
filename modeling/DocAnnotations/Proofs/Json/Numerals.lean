import DocAnnotations.Json.Reader
import DocAnnotations.Json.Writer
import DocAnnotations.Proofs.Text.Cut
import Mathlib.Data.List.Induction
import Mathlib.Data.List.TakeWhile
import Mathlib.Data.Nat.Init
import Mathlib.Tactic.SplitIfs

/-!
# How numerals are spelled

Reading takes exactly the texts that spell a numeral, as long as what stands
behind cannot go on with it.
-/

namespace DocAnnotations.Json

open Decimal (isDigit digitValue natOfDigits)

/-! ## Spellings -/

theorem isDigit_iff (c : Char) : isDigit c = true ↔ 0x30 ≤ c.toNat ∧ c.toNat ≤ 0x39 := by
  simp [isDigit, Char.le_def, UInt32.le_iff_toNat_le]

def IsDigits (ds : List Char) : Prop := ds ≠ [] ∧ ∀ c ∈ ds, isDigit c = true

/-- Digits that do not start with a zero unless it is the only one. -/
def IsWhole (ds : List Char) : Prop := IsDigits ds ∧ (ds = ['0'] ∨ ds.head? ≠ some '0')

/-- A point and digits, or nothing. -/
inductive SpellsFraction : List Char → Option (List Char) → Prop
  | absent : SpellsFraction [] none
  | present {ds : List Char} (h : IsDigits ds) : SpellsFraction ('.' :: ds) (some ds)

inductive SpellsSign : List Char → Bool → Prop
  | absent : SpellsSign [] false
  | plus : SpellsSign ['+'] false
  | minus : SpellsSign ['-'] true

/-- An exponent mark, a sign and digits, or nothing. -/
inductive SpellsPower : List Char → Option (Bool × List Char) → Prop
  | absent : SpellsPower [] none
  | present {mark : Char} {sign ds : List Char} {negative : Bool} (hmark : mark = 'e' ∨ mark = 'E')
      (hsign : SpellsSign sign negative) (h : IsDigits ds) :
      SpellsPower (mark :: (sign ++ ds)) (some (negative, ds))

/-- What a numeral is put together from. -/
inductive SpellsNumeral : List Char → Numeral → Prop
  | mk {sign whole point power : List Char} {negative : Bool} {fraction : Option (List Char)}
      {exponent : Option (Bool × List Char)} (hsign : SpellsSign sign negative)
      (hplus : sign ≠ ['+']) (hwhole : IsWhole whole) (hpoint : SpellsFraction point fraction)
      (hpower : SpellsPower power exponent) :
      SpellsNumeral (sign ++ (whole ++ (point ++ power))) ⟨negative, whole, fraction, exponent⟩

/-- What may follow a number without being taken for a part of it. -/
def EndsNumber (rest : List Char) : Prop :=
  ∀ c, rest.head? = some c → isDigit c = false ∧ c ≠ '.' ∧ c ≠ 'e' ∧ c ≠ 'E'

/-! ## Spelled numerals are read -/

theorem span_digits (ds rest : List Char) (hd : ∀ c ∈ ds, isDigit c = true)
    (hr : ∀ c, rest.head? = some c → isDigit c = false) : (ds ++ rest).span isDigit = (ds, rest) :=
  Text.span_append ds rest hd hr

theorem readWhole_of_isWhole {ds : List Char} (h : IsWhole ds) (rest : List Char)
    (hr : ∀ c, rest.head? = some c → isDigit c = false) :
    readWhole (ds ++ rest) = some (ds, rest) := by
  obtain ⟨⟨hne, hdigits⟩, rfl | hzero⟩ := h
  · have hnext : (rest.head?.map isDigit).getD false = false := by
      cases rest with
      | nil => rfl
      | cons c cs => simp [hr c rfl]
    simp [readWhole, hnext]
  · have hspan := span_digits ds rest hdigits hr
    obtain ⟨d, ds, rfl⟩ := List.exists_cons_of_ne_nil hne
    have hd : d ≠ '0' := by simpa using hzero
    rw [List.cons_append] at hspan ⊢
    simp [readWhole, hd, hspan, -List.span_eq_takeWhile_dropWhile]

theorem readFraction_of_spells {cs : List Char} {fraction : Option (List Char)}
    (h : SpellsFraction cs fraction) (rest : List Char)
    (hr : ∀ c, rest.head? = some c → isDigit c = false ∧ c ≠ '.') :
    readFraction (cs ++ rest) = some (fraction, rest) := by
  cases h with
  | absent =>
    cases rest with
    | nil => rfl
    | cons c rest => simp [readFraction, (hr c rfl).2]
  | @present ds hds =>
    have hspan := span_digits ds rest hds.2 fun c hc => (hr c hc).1
    simp [readFraction, hspan, hds.1, -List.span_eq_takeWhile_dropWhile]

theorem readSign_of_spells {cs ds : List Char} {negative : Bool} (h : SpellsSign cs negative)
    (hds : IsDigits ds) (rest : List Char) :
    Decimal.readSign (cs ++ (ds ++ rest)) = (negative, ds ++ rest) := by
  obtain ⟨d, ds, rfl⟩ := List.exists_cons_of_ne_nil hds.1
  have hd := hds.2 d List.mem_cons_self
  cases h with
  | absent =>
    have hminus : d ≠ '-' := by rintro rfl; simp [isDigit] at hd
    have hplus : d ≠ '+' := by rintro rfl; simp [isDigit] at hd
    simp [Decimal.readSign, hminus, hplus]
  | plus => rfl
  | minus => rfl

theorem readPower_of_spells {cs : List Char} {power : Option (Bool × List Char)}
    (h : SpellsPower cs power) (rest : List Char) (hr : EndsNumber rest) :
    readPower (cs ++ rest) = some (power, rest) := by
  cases h with
  | absent =>
    cases rest with
    | nil => rfl
    | cons c rest => simp [readPower, (hr c rfl).2.2]
  | @present mark sign ds negative hmark hsign hds =>
    have hspan := span_digits ds rest hds.2 fun c hc => (hr c hc).1
    have hread := readSign_of_spells hsign hds rest
    rw [List.cons_append, List.append_assoc]
    simp [readPower, hmark, hread, hspan, hds.1, -List.span_eq_takeWhile_dropWhile]

theorem SpellsPower.head {cs : List Char} {power : Option (Bool × List Char)}
    (h : SpellsPower cs power) {rest : List Char} (hr : EndsNumber rest) :
    ∀ c, (cs ++ rest).head? = some c → isDigit c = false ∧ c ≠ '.' := by
  intro c hc
  cases h with
  | absent => exact ⟨(hr c hc).1, (hr c hc).2.1⟩
  | present hmark =>
    simp only [List.cons_append, List.head?_cons, Option.some.injEq] at hc
    subst hc
    rcases hmark with rfl | rfl <;> decide

theorem SpellsFraction.head {cs : List Char} {fraction : Option (List Char)}
    (h : SpellsFraction cs fraction) {rest : List Char}
    (hr : ∀ c, rest.head? = some c → isDigit c = false ∧ c ≠ '.') :
    ∀ c, (cs ++ rest).head? = some c → isDigit c = false := by
  intro c hc
  cases h with
  | absent => exact (hr c hc).1
  | present =>
    simp only [List.cons_append, List.head?_cons, Option.some.injEq] at hc
    subst hc
    rfl

theorem readNumeral_of_spells {cs : List Char} {n : Numeral} (h : SpellsNumeral cs n)
    (rest : List Char) (hr : EndsNumber rest) : readNumeral (cs ++ rest) = some (n, rest) := by
  obtain ⟨hsign, hplus, hwhole, hpoint, hpower⟩ := h
  rename_i sign whole point power negative fraction exponent
  have hafter := hpower.head hr
  have hreadWhole := readWhole_of_isWhole hwhole _ (hpoint.head hafter)
  have hreadPoint := readFraction_of_spells hpoint _ hafter
  have hreadPower := readPower_of_spells hpower rest hr
  simp only [List.append_assoc]
  cases hsign with
  | absent =>
    obtain ⟨d, ds, rfl⟩ := List.exists_cons_of_ne_nil hwhole.1.1
    have hd := hwhole.1.2 d List.mem_cons_self
    have hminus : d ≠ '-' := by rintro rfl; simp [isDigit] at hd
    rw [List.cons_append] at hreadWhole
    simp [readNumeral, hminus, hreadWhole, hreadPoint, hreadPower]
  | plus => exact absurd rfl hplus
  | minus => simp [readNumeral, hreadWhole, hreadPoint, hreadPower]

/-! ## What is read is a spelled numeral -/

theorem isDigits_of_span {cs ds rest : List Char} (h : cs.span isDigit = (ds, rest))
    (hne : ds ≠ []) : cs = ds ++ rest ∧ IsDigits ds := by
  rw [List.span_eq_takeWhile_dropWhile, Prod.mk.injEq] at h
  obtain ⟨rfl, rfl⟩ := h
  exact ⟨List.takeWhile_append_dropWhile.symm, hne, fun c hc => List.mem_takeWhile_imp hc⟩

theorem isWhole_of_readWhole {cs ds rest : List Char} (h : readWhole cs = some (ds, rest)) :
    cs = ds ++ rest ∧ IsWhole ds := by
  unfold readWhole at h
  split at h
  · next after =>
    split at h
    · simp at h
    · obtain ⟨rfl, rfl⟩ : ['0'] = ds ∧ after = rest := by simpa using h
      exact ⟨rfl, ⟨by simp, by simp [isDigit]⟩, .inl rfl⟩
  · next hzero =>
    split at h
    next ds' rest' hspan =>
    split at h
    · simp at h
    · next hne =>
      obtain ⟨rfl, rfl⟩ : ds' = ds ∧ rest' = rest := by simpa using h
      obtain ⟨rfl, hdigits⟩ := isDigits_of_span hspan (by simpa using hne)
      refine ⟨rfl, hdigits, .inr ?_⟩
      intro hhead
      obtain ⟨d, ds, rfl⟩ := List.exists_cons_of_ne_nil hdigits.1
      obtain rfl : d = '0' := by simpa using hhead
      exact hzero _ rfl

theorem spells_of_readFraction {cs rest : List Char} {fraction : Option (List Char)}
    (h : readFraction cs = some (fraction, rest)) :
    ∃ used, cs = used ++ rest ∧ SpellsFraction used fraction := by
  unfold readFraction at h
  split at h
  · split at h
    next ds rest' hspan =>
    split at h
    · simp at h
    · next hne =>
      obtain ⟨rfl, rfl⟩ : some ds = fraction ∧ rest' = rest := by simpa using h
      obtain ⟨rfl, hdigits⟩ := isDigits_of_span hspan (by simpa using hne)
      exact ⟨_, rfl, .present hdigits⟩
  · obtain ⟨rfl, rfl⟩ : none = fraction ∧ cs = rest := by simpa using h
    exact ⟨[], rfl, .absent⟩

theorem spells_of_readSign (cs : List Char) :
    ∃ sign, cs = sign ++ (Decimal.readSign cs).2 ∧ SpellsSign sign (Decimal.readSign cs).1 := by
  unfold Decimal.readSign
  split
  · exact ⟨['-'], rfl, .minus⟩
  · exact ⟨['+'], rfl, .plus⟩
  · exact ⟨[], rfl, .absent⟩

theorem spells_of_readPower {cs rest : List Char} {power : Option (Bool × List Char)}
    (h : readPower cs = some (power, rest)) :
    ∃ used, cs = used ++ rest ∧ SpellsPower used power := by
  unfold readPower at h
  split at h
  · next mark after =>
    split at h
    · next hmark =>
      obtain ⟨sign, hafter, hsign⟩ := spells_of_readSign after
      split at h
      next negative cs' hsplit =>
      rw [hsplit] at hafter hsign
      split at h
      next ds rest' hspan =>
      split at h
      · simp at h
      · next hne =>
        obtain ⟨rfl, rfl⟩ : some (negative, ds) = power ∧ rest' = rest := by simpa using h
        obtain ⟨rfl, hdigits⟩ := isDigits_of_span hspan (by simpa using hne)
        exact ⟨_, by simp [hafter], .present hmark hsign hdigits⟩
    · obtain ⟨rfl, rfl⟩ : none = power ∧ mark :: after = rest := by simpa using h
      exact ⟨[], rfl, .absent⟩
  · obtain ⟨rfl, rfl⟩ : none = power ∧ [] = rest := by simpa using h
    exact ⟨[], rfl, .absent⟩

theorem spells_of_readNumeral {cs rest : List Char} {n : Numeral}
    (h : readNumeral cs = some (n, rest)) : ∃ used, cs = used ++ rest ∧ SpellsNumeral used n := by
  have hmagnitude : ∀ {sign : List Char} {negative : Bool} {cs : List Char},
      SpellsSign sign negative → sign ≠ ['+'] →
      ((readWhole cs).bind fun w => (readFraction w.2).bind fun f => (readPower f.2).bind fun p =>
        some ((⟨negative, w.1, f.1, p.1⟩ : Numeral), p.2)) = some (n, rest) →
      ∃ used, sign ++ cs = used ++ rest ∧ SpellsNumeral used n := by
    intro sign negative cs hsign hplus h
    simp only [Option.bind_eq_some_iff] at h
    obtain ⟨⟨whole, cs₁⟩, hw, ⟨fraction, cs₂⟩, hf, ⟨power, cs₃⟩, hp, h⟩ := h
    obtain ⟨rfl, rfl⟩ : (⟨negative, whole, fraction, power⟩ : Numeral) = n ∧ cs₃ = rest := by
      simpa using h
    obtain ⟨rfl, hwhole⟩ := isWhole_of_readWhole hw
    obtain ⟨used₂, rfl, hfraction⟩ := spells_of_readFraction hf
    obtain ⟨used₃, rfl, hpower⟩ := spells_of_readPower hp
    exact ⟨_, by simp, .mk hsign hplus hwhole hfraction hpower⟩
  unfold readNumeral at h
  split at h
  next negative cs' hsplit =>
  split at hsplit
  · next after =>
    obtain ⟨rfl, rfl⟩ : true = negative ∧ after = cs' := by simpa using hsplit
    exact hmagnitude .minus (by decide) h
  · obtain ⟨rfl, rfl⟩ : false = negative ∧ cs = cs' := by simpa using hsplit
    exact hmagnitude .absent (by decide) h

/-! ## What stands in a numeral -/

/-- The characters of which numerals are made. -/
def isNumeric (c : Char) : Bool :=
  isDigit c || c == '-' || c == '+' || c == '.' || c == 'e' || c == 'E'

theorem IsDigits.isNumeric {ds : List Char} (h : IsDigits ds) (c : Char) (hc : c ∈ ds) :
    isNumeric c = true := by
  simp [Json.isNumeric, h.2 c hc]

theorem SpellsSign.isNumeric {cs : List Char} {negative : Bool} (h : SpellsSign cs negative)
    (c : Char) (hc : c ∈ cs) : isNumeric c = true := by
  cases h with
  | absent => simp at hc
  | plus | minus =>
    rw [List.mem_singleton] at hc
    subst hc
    rfl

theorem SpellsNumeral.isNumeric {cs : List Char} {n : Numeral} (h : SpellsNumeral cs n) (c : Char)
    (hc : c ∈ cs) : isNumeric c = true := by
  obtain ⟨hsign, -, hwhole, hpoint, hpower⟩ := h
  simp only [List.mem_append] at hc
  rcases hc with hc | hc | hc | hc
  · exact hsign.isNumeric c hc
  · exact hwhole.1.isNumeric c hc
  · cases hpoint with
    | absent => simp at hc
    | present hds =>
      rcases List.mem_cons.mp hc with rfl | hc
      · rfl
      · exact hds.isNumeric c hc
  · cases hpower with
    | absent => simp at hc
    | present hmark hsign hds =>
      simp only [List.mem_cons, List.mem_append] at hc
      rcases hc with rfl | hc | hc
      · rcases hmark with rfl | rfl <;> rfl
      · exact hsign.isNumeric c hc
      · exact hds.isNumeric c hc

theorem SpellsNumeral.head {cs : List Char} {n : Numeral} (h : SpellsNumeral cs n) :
    ∃ c rest, cs = c :: rest ∧ (c = '-' ∨ isDigit c = true) := by
  obtain ⟨hsign, hplus, hwhole, -, -⟩ := h
  cases hsign with
  | absent =>
    obtain ⟨d, ds, rfl⟩ := List.exists_cons_of_ne_nil hwhole.1.1
    exact ⟨d, _, rfl, .inr (hwhole.1.2 d List.mem_cons_self)⟩
  | plus => exact absurd rfl hplus
  | minus => exact ⟨'-', _, rfl, .inl rfl⟩

theorem last_append {cs ds : List Char} (hcs : ∀ c, cs.getLast? = some c → isDigit c = true)
    (hds : ∀ c, ds.getLast? = some c → isDigit c = true) :
    ∀ c, (cs ++ ds).getLast? = some c → isDigit c = true := by
  intro c hc
  rw [List.getLast?_append, Option.or_eq_some_iff] at hc
  rcases hc with hc | ⟨-, hc⟩
  · exact hds c hc
  · exact hcs c hc

theorem IsDigits.last {ds : List Char} (h : IsDigits ds) (cs : List Char) :
    ∀ c, (cs ++ ds).getLast? = some c → isDigit c = true := by
  intro c hc
  rw [List.getLast?_append, Option.or_eq_some_iff] at hc
  rcases hc with hc | ⟨hnone, -⟩
  · exact h.2 c (List.mem_of_getLast? hc)
  · exact absurd (List.getLast?_eq_none_iff.mp hnone) h.1

theorem SpellsNumeral.last {cs : List Char} {n : Numeral} (h : SpellsNumeral cs n) :
    ∀ c, cs.getLast? = some c → isDigit c = true := by
  obtain ⟨hsign, -, hwhole, hpoint, hpower⟩ := h
  rename_i sign whole point power negative fraction exponent
  have hpoint : ∀ c, point.getLast? = some c → isDigit c = true := by
    cases hpoint with
    | absent => simp
    | present hds => exact hds.last ['.']
  have hpower : ∀ c, power.getLast? = some c → isDigit c = true := by
    cases hpower with
    | absent => simp
    | @present mark sign _ _ hmark hsign hds => exact hds.last (mark :: sign)
  rw [← List.append_assoc]
  exact last_append (hwhole.1.last sign) (last_append hpoint hpower)

/-! ## Written integers -/

theorem isDigit_of_mem_toDigits (n : Nat) (c : Char) (h : c ∈ Nat.toDigits 10 n) :
    isDigit c = true := by
  have hc : c.isDigit = true := Nat.isDigit_of_mem_toDigits (by omega) (by omega) h
  simpa [Char.isDigit, isDigit, Char.le_def] using hc

theorem natOfDigits_toDigits (n : Nat) : natOfDigits (Nat.toDigits 10 n) = n :=
  Nat.ofDigitChars_ten_toDigits

theorem toDigits_head_ne_zero (n : Nat) (h : 1 ≤ n) : (Nat.toDigits 10 n).head? ≠ some '0' := by
  induction n using Nat.strong_induction_on with
  | _ n ih =>
    by_cases h10 : n < 10
    · rw [Nat.toDigits_of_lt_base h10]
      have hn : ∀ m < 10, 1 ≤ m → [m.digitChar].head? ≠ some '0' := by decide
      exact hn n h10 h
    · rw [Nat.toDigits_of_base_le (by omega) (by omega), List.head?_append]
      have hne : Nat.toDigits 10 (n / 10) ≠ [] := Nat.toDigits_ne_nil
      obtain ⟨d, ds, hd⟩ := List.exists_cons_of_ne_nil hne
      have := ih (n / 10) (by omega) (by omega)
      simpa [hd] using this

theorem isWhole_toDigits (n : Nat) : IsWhole (Nat.toDigits 10 n) := by
  refine ⟨⟨Nat.toDigits_ne_nil, isDigit_of_mem_toDigits n⟩, ?_⟩
  by_cases hn : n = 0
  · subst hn
    exact .inl rfl
  · exact .inr (toDigits_head_ne_zero n (by omega))

theorem spellsNumeral_writeInt (i : Int) :
    SpellsNumeral (writeInt i) ⟨i < 0, Nat.toDigits 10 i.natAbs, none, none⟩ := by
  have hmk := fun (sign : List Char) (negative : Bool) (hsign : SpellsSign sign negative)
    (hplus : sign ≠ ['+']) =>
      SpellsNumeral.mk hsign hplus (isWhole_toDigits i.natAbs) .absent .absent
  unfold writeInt
  split_ifs with hi
  · simpa [hi] using hmk ['-'] true .minus (by decide)
  · simpa [hi] using hmk [] false .absent (by decide)

theorem value?_int (n : Int64) :
    (⟨n.toInt < 0, Nat.toDigits 10 n.toInt.natAbs, none, none⟩ : Numeral).value? =
      some (.int n) := by
  have hlo : -2 ^ 63 ≤ n.toInt := n.le_toInt
  have hhi : n.toInt < 2 ^ 63 := n.toInt_lt
  have hinteger : (⟨n.toInt < 0, Nat.toDigits 10 n.toInt.natAbs, none, none⟩ : Numeral).integer? =
      some n.toInt.natAbs := by
    simp [Numeral.integer?, natOfDigits_toDigits]
    omega
  have hpow : Nat.pow 2 63 = 9223372036854775808 := rfl
  rw [Numeral.value?, hinteger]
  by_cases hn : n.toInt < 0
  · have hback : -(n.toInt.natAbs : Int) = n.toInt := by omega
    have hbounds : 0 < n.toInt.natAbs ∧ n.toInt.natAbs ≤ Nat.pow 2 63 := by
      rw [hpow]
      omega
    simp only [hn, hbounds, decide_true, and_self, if_true]
    rw [hback, Int64.ofInt_toInt]
  · have hback : (n.toInt.natAbs : Int) = n.toInt := by omega
    have hbound : n.toInt.natAbs < Nat.pow 2 63 := by
      rw [hpow]
      omega
    simp only [hn, hbound, decide_false, Bool.false_eq_true, if_true, if_false]
    rw [← Int64.ofInt_eq_ofNat, hback, Int64.ofInt_toInt]

/-! ## Integers are spelled as they are written -/

theorem digitValue_lt {c : Char} (h : isDigit c = true) : digitValue c < 10 := by
  have hzero : '0'.toNat = 0x30 := rfl
  rw [isDigit_iff] at h
  rw [digitValue, hzero]
  omega

theorem digitChar_digitValue {c : Char} (h : isDigit c = true) : (digitValue c).digitChar = c := by
  have hzero : '0'.toNat = 0x30 := rfl
  apply Char.toNat_inj.mp
  rw [Nat.toNat_digitChar_of_lt_ten (digitValue_lt h)]
  rw [isDigit_iff] at h
  rw [digitValue, hzero]
  omega

theorem natOfDigits_concat (ds : List Char) (d : Char) :
    natOfDigits (ds ++ [d]) = 10 * natOfDigits ds + digitValue d := by
  simp [natOfDigits]

theorem toDigits_natOfDigits {ds : List Char} (h : IsWhole ds) :
    Nat.toDigits 10 (natOfDigits ds) = ds := by
  induction ds using List.reverseRecOn with
  | nil => exact absurd rfl h.1.1
  | append_singleton ds d ih =>
    have hd : isDigit d = true := h.1.2 d (by simp)
    rw [natOfDigits_concat]
    by_cases hds : ds = []
    · subst hds
      have hzero : natOfDigits [] = 0 := rfl
      rw [hzero, Nat.mul_zero, Nat.zero_add, Nat.toDigits_of_lt_base (digitValue_lt hd),
        digitChar_digitValue hd, List.nil_append]
    · obtain ⟨hdigits, hone | hfront⟩ := h
      · have hlen := congrArg List.length hone
        have hpos := List.length_pos_iff.mpr hds
        simp only [List.length_append, List.length_singleton] at hlen
        omega
      replace hfront : ds.head? ≠ some '0' := by
        obtain ⟨e, es, rfl⟩ := List.exists_cons_of_ne_nil hds
        simpa using hfront
      have hback := ih ⟨⟨hds, fun c hc => hdigits.2 c (by simp [hc])⟩, .inr hfront⟩
      -- The digits in front of the last one do not start with a zero either, so their number is
      -- not zero.
      have hpos : 0 < natOfDigits ds := by
        by_contra hzero
        obtain hzero : natOfDigits ds = 0 := by omega
        rw [hzero] at hback
        rw [← hback] at hfront
        exact hfront rfl
      have happend := Nat.toDigits_append_toDigits (b := 10) (by decide) hpos (digitValue_lt hd)
      rw [← happend, hback, Nat.toDigits_of_lt_base (digitValue_lt hd), digitChar_digitValue hd]

theorem writeInt_natOfDigits {ds : List Char} (h : IsWhole ds) :
    writeInt (natOfDigits ds) = ds := by
  have hnot : ¬ (natOfDigits ds : Int) < 0 := by omega
  rw [writeInt, if_neg hnot, Int.natAbs_natCast, toDigits_natOfDigits h]

theorem writeInt_neg_natOfDigits {ds : List Char} (h : IsWhole ds) (hpos : 0 < natOfDigits ds) :
    writeInt (-(natOfDigits ds : Int)) = '-' :: ds := by
  have hneg : -(natOfDigits ds : Int) < 0 := by omega
  rw [writeInt, if_pos hneg, Int.natAbs_neg, Int.natAbs_natCast, toDigits_natOfDigits h]

theorem integer?_eq_some {n : Numeral} {i : Nat} (h : n.integer? = some i) :
    n.fraction = none ∧ n.exponent = none ∧ natOfDigits n.whole = i := by
  unfold Numeral.integer? at h
  split at h
  · simp at h
  · next hplain =>
    simp only [Bool.or_eq_true, Option.isSome_iff_ne_none, not_or, ne_eq, Decidable.not_not]
      at hplain
    simp only [Option.ite_none_right_eq_some, Option.some.injEq] at h
    exact ⟨hplain.1, hplain.2, h.2⟩

theorem integer?_of_value? {n : Numeral} {i : Int64} (h : n.value? = some (.int i)) :
    n.integer? = some i.toInt.natAbs ∧
      (n.negative = true ↔ i.toInt < 0) := by
  have hpow : Nat.pow 2 63 = 9223372036854775808 := rfl
  unfold Numeral.value? at h
  split at h
  · next m hm =>
    split_ifs at h with hneg hrange hrange
    · obtain rfl : Int64.ofInt (-(m : Int)) = i := by simpa using h
      rw [hpow] at hrange
      rw [hm, Int64.toInt_ofInt_of_le (by omega) (by omega)]
      simp [hneg]
      omega
    · simp at h
    · obtain rfl : Int64.ofNat m = i := by simpa using h
      rw [hpow] at hrange
      rw [hm, ← Int64.ofInt_eq_ofNat, Int64.toInt_ofInt_of_le (by omega) (by omega)]
      simp [hneg]
    · simp at h
  · simp at h

theorem eq_writeInt_of_value? {cs : List Char} {n : Numeral} {i : Int64} (h : SpellsNumeral cs n)
    (hv : n.value? = some (.int i)) : cs = writeInt i.toInt := by
  obtain ⟨hinteger, hsigned⟩ := integer?_of_value? hv
  obtain ⟨hfraction, hexponent, hwhole⟩ := integer?_eq_some hinteger
  obtain ⟨hsign, hplus, hdigits, hpoint, hpower⟩ := h
  rename_i sign whole point power negative fraction exponent
  simp only at hfraction hexponent hwhole hsigned
  subst hfraction hexponent
  cases hpoint
  cases hpower
  cases hsign with
  | plus => exact absurd rfl hplus
  | absent =>
    have hi : i.toInt = natOfDigits whole := by
      simp only [Bool.false_eq_true, false_iff] at hsigned
      omega
    rw [hi, writeInt_natOfDigits hdigits]
    simp
  | minus =>
    simp only [true_iff] at hsigned
    have hi : i.toInt = -(natOfDigits whole : Int) := by omega
    rw [hi, writeInt_neg_natOfDigits hdigits (by omega)]
    simp

end DocAnnotations.Json
