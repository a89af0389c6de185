/-
# Theory.PrecisionText -- `%.pg` for any precision, and the texts that it writes

With the style with an exponent in it, every finite value but zero has a text that is read back
as the decimal that it stands for (`scanNumber_precisionForm`), which is near to the value
(`toDigits_near`).  `formatG` is the case of six digits (`formatG_eq_precision`).
-/
import SpnavBridge.Theory.NumberText
import SpnavBridge.Theory.Precision

namespace SpnavBridge.Theory

set_option autoImplicit false

/-! ## Writing -/

/-- `n / 10 ^ k`, where `n` has `p` digits -/
def fixedForm (p n k : Nat) : List UInt8 :=
  let digits := Nat.digitsAppend 10 (max p (k + 1)) n
  pointText (digits.drop k) (digits.take k)

/-- An exponent of at least two digits. -/
def exponentText (exponent : Int) : List UInt8 :=
  101 :: (if exponent < 0 then 45 else 43) :: digitText (Nat.digitsAppend 10 2 exponent.natAbs)

/-- `p` digits with the point behind the first one, and an exponent. -/
def scientificForm (p n : Nat) (exponent : Int) : List UInt8 :=
  let digits := Nat.digitsAppend 10 p n
  pointText (digits.drop (p - 1)) (digits.take (p - 1)) ++ exponentText exponent

/-- `p` digits, when the last one has carried through to one more, too. -/
def significant (p : Nat) (q : ℚ) : Nat × Int :=
  let printed := digitsOf p q
  if printed.1 = 10 ^ p then (10 ^ (p - 1), printed.2 + 1) else printed

def precisionForm (p : Nat) (q : ℚ) : List UInt8 :=
  let printed := significant p q
  let exponent := printed.2 + (p - 1 : Nat)
  if -4 ≤ exponent ∧ exponent < p then fixedForm p printed.1 (-printed.2).toNat
  else scientificForm p printed.1 exponent

variable {fmt : Format}

/-- `%.pg` -/
def formatPrecision (p : Nat) : Value fmt → List UInt8
  | .nan => ascii "nan"
  | .inf negative => ascii (if negative then "-inf" else "inf")
  | .finite negative magnitude _ =>
      (if negative then [45] else []) ++
        if magnitude = 0 then [48] else precisionForm p (magnitude / 2 ^ fmt.least)

/-- `%g` is `%.6g`. -/
theorem formatG_eq_precision {negative : Bool} {m : Nat} (held : fmt.Held m) :
    formatG (.finite negative m held) = .ofBytes (formatPrecision 6 (.finite negative m held)) := rfl

/-! ## Digits -/

theorem significant_spec {p : Nat} (some_ : 0 < p) {q : ℚ} (pos : 0 < q) :
    10 ^ (p - 1) ≤ (significant p q).1 ∧ (significant p q).1 < 10 ^ p ∧
      (significant p q).1 * 10 ^ (significant p q).2 = toDigits p q ∧
      Int.log 10 q + 1 - p ≤ (significant p q).2 ∧ (significant p q).2 ≤ Int.log 10 q + 2 - p := by
  have most := digitsOf_le (p := p) pos
  have last : (digitsOf p q).2 = Int.log 10 q + 1 - p := rfl
  have least : 10 ^ (p - 1) ≤ (digitsOf p q).1 := by
    refine le_nearest ?_
    rw [le_div_iff₀ (unit_pos _)]
    calc ((10 ^ (p - 1) : Nat) : ℚ) * 10 ^ (Int.log 10 q + 1 - p)
        = 10 ^ Int.log 10 q := by
          push_cast
          rw [← zpow_natCast, ← zpow_add₀ (by norm_num)]
          congr 1
          omega
      _ ≤ q := zpow_log_le pos
  have power : 10 ^ p = 10 ^ (p - 1) * 10 := by
    rw [← Nat.pow_succ]
    congr 1
    omega
  unfold significant
  dsimp only
  split_ifs with carry
  · refine ⟨le_rfl, Nat.pow_lt_pow_right (by decide) (by omega), ?_, by dsimp only; omega,
      by dsimp only; omega⟩
    rw [toDigits, carry, power, zpow_add_one₀ (by norm_num)]
    push_cast
    ring
  · exact ⟨least, by omega, rfl, by omega, by omega⟩

/-- What the digits of a number are: none too many, none in front that is a zero. -/
structure Written (p n : Nat) (whole fraction : List Nat) : Prop where
  some_ : whole ≠ []
  digits : ∀ d ∈ whole, d < 10
  digits' : ∀ d ∈ fraction, d < 10
  value : Nat.ofDigits 10 (fraction ++ whole) = n
  first : whole = [0] ∨ whole.getLast? ≠ some 0

section Digits

variable {p n : Nat} (least : 10 ^ (p - 1) ≤ n) (small : n < 10 ^ p) (some_ : 0 < p)
include least small some_

theorem length_digits_eq : (Nat.digits 10 n).length = p := by
  have pos : n ≠ 0 := (lt_of_lt_of_le (Nat.pow_pos (by decide)) least).ne'
  refine le_antisymm ((Nat.digits_length_le_iff (by decide) n).mpr small) ?_
  have more := (Nat.lt_digits_length_iff (b := 10) (by decide) (k := p - 1) n).mpr least
  omega

theorem written_of_digits {l k : Nat} (split : (l = p ∧ k < p) ∨ (l = k + 1 ∧ p ≤ k)) :
    Written p n ((Nat.digitsAppend 10 l n).drop k) ((Nat.digitsAppend 10 l n).take k) ∧
      ((Nat.digitsAppend 10 l n).take k).length = k ∧
      ((Nat.digitsAppend 10 l n).drop k).length = l - k := by
  have room : p ≤ l := by omega
  have fits : n < 10 ^ l := small.trans_le (Nat.pow_le_pow_right (by decide) room)
  have length := Nat.length_digitsAppend (by decide : 1 < 10) _ fits
  have digit : ∀ d ∈ Nat.digitsAppend 10 l n, d < 10 := fun d mem =>
    Nat.lt_of_mem_digitsAppend (by decide) _ d mem
  have nonzero : n ≠ 0 := (lt_of_lt_of_le (Nat.pow_pos (by decide)) least).ne'
  have count := length_digits_eq least small some_
  refine ⟨⟨?_, fun d mem => digit d (List.mem_of_mem_drop mem),
    fun d mem => digit d (List.mem_of_mem_take mem), ?_, ?_⟩, ?_, ?_⟩
  · rw [Ne, List.drop_eq_nil_iff, length]
    omega
  · rw [List.take_append_drop, Nat.digitsAppend, Nat.ofDigits_append_replicate_zero,
      Nat.ofDigits_digits]
  · rw [Nat.digitsAppend, count]
    rcases split with ⟨rfl, inside⟩ | ⟨rfl, beyond⟩
    · right
      have last := Nat.getLast_digit_ne_zero 10 nonzero
      rw [Nat.sub_self, List.replicate_zero, List.append_nil, List.getLast?_drop,
        if_neg (by omega),
        List.getLast?_eq_some_getLast (Nat.digits_ne_nil_iff_ne_zero.mpr nonzero)]
      exact fun same => last (Option.some.inj same)
    · left
      rw [List.drop_append, List.drop_eq_nil_of_le (by omega), List.nil_append, count,
        List.drop_replicate]
      have one : k + 1 - p - (k - p) = 1 := by omega
      rw [one]
      rfl
  · rw [List.length_take, length]
    omega
  · rw [List.length_drop, length]

end Digits

/-! ## Reading -/

/-- Behind a mantissa: no digit and no point. -/
structure EndsMantissa (rest : List UInt8) : Prop where
  digits : scanDigits 10 rest = ([], rest)
  fraction : scanFraction 10 rest = ([], rest)

/-- A mantissa, and what is read as the exponent behind it. -/
theorem scanNumber_mantissa {p n : Nat} {whole fraction : List Nat}
    (written : Written p n whole fraction) {rest behind : List UInt8} {x : Int}
    (ends : EndsMantissa rest) (exponent : scanExponent 101 rest = (x, behind)) :
    scanNumber 10 10 101 (pointText whole fraction ++ rest) =
      some ((n : ℚ) / 10 ^ fraction.length * 10 ^ x, behind) := by
  have kept_small : ∀ d ∈ fraction.dropWhile (· = 0), d < 10 := fun d inside =>
    written.digits' d ((List.dropWhile_sublist _).subset inside)
  have number : ∀ l : List UInt8, scanDigits 10 l = ([], l) →
      scanFraction 10 l = ((fraction.dropWhile (· = 0)).reverse, rest) →
      scanNumber 10 10 101 (digitText whole ++ l) =
        some ((n : ℚ) / 10 ^ fraction.length * 10 ^ x, behind) := by
    intro l stop behind_
    have first : whole.reverse ++ (fraction.dropWhile (· = 0)).reverse ≠ [] := by
      simp [written.some_]
    rw [scanNumber]
    simp only [scanDigits_append written.digits stop, behind_, exponent, if_neg first]
    rw [List.reverse_append, List.reverse_reverse, List.reverse_reverse, List.length_reverse,
      ← written.value]
    congr 3
    exact_mod_cast ofDigits_dropWhile fraction whole
  rw [pointText, List.append_assoc]
  split_ifs with none_
  · refine number rest ends.digits ?_
    rw [ends.fraction, none_]
    rfl
  · exact number _ rfl (scanDigits_append kept_small ends.digits)

theorem endsMantissa_exponentText (exponent : Int) (rest : List UInt8) :
    EndsMantissa (exponentText exponent ++ rest) := ⟨rfl, rfl⟩

theorem endsMantissa_of_stops {rest : List UInt8} (stops : Stops rest) : EndsMantissa rest :=
  ⟨stops.digits, stops.fraction⟩

/-- An exponent is read back. -/
theorem scanExponent_exponentText (exponent : Int) {rest : List UInt8}
    (stop : scanDigits 10 rest = ([], rest)) :
    scanExponent 101 (exponentText exponent ++ rest) = (exponent, rest) := by
  have small : ∀ d ∈ Nat.digitsAppend 10 2 exponent.natAbs, d < 10 := fun d mem =>
    Nat.lt_of_mem_digitsAppend (by decide) _ d mem
  have some_ : Nat.digitsAppend 10 2 exponent.natAbs ≠ [] := by
    intro none_
    have length := congrArg List.length none_
    rw [Nat.digitsAppend, List.length_append, List.length_replicate, List.length_nil] at length
    omega
  have value : Nat.ofDigits 10 (Nat.digitsAppend 10 2 exponent.natAbs) = exponent.natAbs := by
    rw [Nat.digitsAppend, Nat.ofDigits_append_replicate_zero, Nat.ofDigits_digits]
  have scanned := scanDigits_append small stop
  rw [exponentText]
  generalize Nat.digitsAppend 10 2 exponent.natAbs = digits at scanned some_ value
  have nonempty : digits.reverse ≠ [] := by simpa using some_
  by_cases below : exponent < 0
  · rw [if_pos below, List.cons_append, List.cons_append, scanExponent,
      show scanSign (45 :: (digitText digits ++ rest)) = (true, digitText digits ++ rest) from rfl]
    dsimp only
    rw [scanned, if_pos ⟨by decide, nonempty⟩, if_pos rfl, List.reverse_reverse, value]
    congr 1
    omega
  · rw [if_neg below, List.cons_append, List.cons_append, scanExponent,
      show scanSign (43 :: (digitText digits ++ rest)) = (false, digitText digits ++ rest) from rfl]
    dsimp only
    rw [scanned, if_pos ⟨by decide, nonempty⟩, if_neg Bool.false_ne_true, List.reverse_reverse, value]
    congr 1
    omega

/-! ## Any precision -/

section PrecisionForm

variable {p : Nat} (some_ : 0 < p) {q : ℚ} (pos : 0 < q)
include some_ pos

/-- The text with a point only, or with an exponent behind it. -/
theorem precisionForm_eq : ∃ n whole fraction, Written p n whole fraction ∧
    ((precisionForm p q = pointText whole fraction ∧
        (n : ℚ) / 10 ^ fraction.length = toDigits p q ∧ whole.length + fraction.length ≤ p + 4) ∨
      ∃ x : Int, precisionForm p q = pointText whole fraction ++ exponentText x ∧
        (n : ℚ) / 10 ^ fraction.length * 10 ^ x = toDigits p q ∧
        whole.length + fraction.length = p ∧ Int.log 10 q ≤ x ∧ x ≤ Int.log 10 q + 1) := by
  obtain ⟨least, small, value, low, high⟩ := significant_spec some_ pos
  unfold precisionForm
  dsimp only
  generalize significant p q = printed at least small value low high ⊢
  by_cases plain : -4 ≤ printed.2 + (p - 1 : Nat) ∧ printed.2 + (p - 1 : Nat) < p
  · obtain ⟨k, places⟩ : ∃ k : Nat, (k : Int) = -printed.2 := ⟨(-printed.2).toNat, by omega⟩
    have toNat : (-printed.2).toNat = k := by omega
    have split : (max p (k + 1) = p ∧ k < p) ∨ (max p (k + 1) = k + 1 ∧ p ≤ k) := by omega
    obtain ⟨written, length, length'⟩ := written_of_digits least small some_ split
    refine ⟨_, _, _, written, Or.inl ⟨?_, ?_, by omega⟩⟩
    · rw [if_pos plain, toNat]
      rfl
    · rw [length, ← value, ← zpow_natCast, places, zpow_neg, div_inv_eq_mul]
  · obtain ⟨written, length, length'⟩ := written_of_digits least small some_
      (Or.inl ⟨rfl, show p - 1 < p by omega⟩)
    refine ⟨_, _, _, written, Or.inr ⟨printed.2 + (p - 1 : Nat), ?_, ?_, by omega, by omega, by omega⟩⟩
    · rw [if_neg plain]
      rfl
    · rw [length, ← value, zpow_add₀ (by norm_num), zpow_natCast]
      have scale : (10 : ℚ) ^ (p - 1) ≠ 0 := by positivity
      field_simp

/-- **What is written is read as the decimal it stands for**, by a reader that goes on at the
right place. -/
theorem scanNumber_precisionForm {rest : List UInt8} (stops : Stops rest) :
    scanNumber 10 10 101 (precisionForm p q ++ rest) = some (toDigits p q, rest) := by
  obtain ⟨n, whole, fraction, written, ⟨text, value, -⟩ | ⟨x, text, value, -⟩⟩ :=
    precisionForm_eq some_ pos
  · rw [text, scanNumber_mantissa written (endsMantissa_of_stops stops) stops.exponent, zpow_zero,
      mul_one, value]
  · rw [text, List.append_assoc, scanNumber_mantissa written (endsMantissa_exponentText x rest)
      (scanExponent_exponentText x stops.digits), value]

end PrecisionForm

/-! ## How near the decimal is -/

theorem nearest_near {q : ℚ} (nonneg : 0 ≤ q) : |(nearest q : ℚ) - q| ≤ 1 / 2 := by
  obtain ⟨low, high⟩ := halfEven_near q.num.natAbs q.den_pos
  have den : (0 : ℚ) < q.den := by exact_mod_cast q.den_pos
  have low' : (2 : ℚ) * q.num.natAbs ≤ 2 * (nearest q * q.den) + q.den := by exact_mod_cast low
  have high' : (2 : ℚ) * (nearest q * q.den) ≤ 2 * q.num.natAbs + q.den := by exact_mod_cast high
  rw [natAbs_num_eq nonneg] at low' high'
  rw [abs_le]
  constructor
  · refine le_of_mul_le_mul_right ?_ den
    linarith
  · refine le_of_mul_le_mul_right ?_ den
    linarith

/-- **The error of `p` digits**: half a unit of the last one. -/
theorem toDigits_near {q : ℚ} (p : Nat) (pos : 0 < q) : |toDigits p q - q| * 10 ^ p ≤ 5 * q := by
  have unit := unit_pos (Int.log 10 q + 1 - p)
  have scale := pow_mul_unit p (Int.log 10 q + 1)
  have low := zpow_log_le pos
  have near := nearest_near (div_nonneg pos.le unit.le)
  have moved : toDigits p q - q =
      ((nearest (q / 10 ^ (Int.log 10 q + 1 - p)) : ℚ) - q / 10 ^ (Int.log 10 q + 1 - p)) *
        10 ^ (Int.log 10 q + 1 - p) := by
    rw [sub_mul, div_mul_cancel₀ _ unit.ne']
    rfl
  rw [zpow_add_one₀ (by norm_num)] at scale
  rw [moved, abs_mul, abs_of_pos unit, mul_assoc, mul_comm ((10 : ℚ) ^ (_ : Int)), scale]
  have power := unit_pos (Int.log 10 q)
  have half := mul_le_mul_of_nonneg_right near (by positivity : (0 : ℚ) ≤ 10 ^ Int.log 10 q * 10)
  linarith

/-! ## What is printed alike -/

/-- A number with `p` digits has no smaller last digit than another one of its value. -/
theorem le_of_digits {p n n' : Nat} {e e' : Int} (least : 10 ^ (p - 1) ≤ n) (small : n' < 10 ^ p)
    (same : (n : ℚ) * 10 ^ e = n' * 10 ^ e') : e ≤ e' := by
  by_contra more
  obtain ⟨k, rfl⟩ : ∃ k : Nat, e = ((k + 1 : Nat) : Int) + e' := ⟨(e - e' - 1).toNat, by omega⟩
  rw [zpow_add₀ (by norm_num), zpow_natCast, ← mul_assoc] at same
  have whole : n * 10 ^ (k + 1) = n' := by exact_mod_cast mul_right_cancel₀ (unit_pos e').ne' same
  have grown : 10 ^ (p - 1) * 10 ^ (k + 1) ≤ n' := by
    rw [← whole]
    exact Nat.mul_le_mul_right _ least
  have power : 10 ^ p ≤ 10 ^ (p - 1) * 10 ^ (k + 1) := by
    rw [← Nat.pow_add]
    exact Nat.pow_le_pow_right (by decide) (by omega)
  omega

/-- The decimal tells its digits. -/
theorem significant_congr {p : Nat} (some_ : 0 < p) {q q' : ℚ} (pos : 0 < q) (pos' : 0 < q')
    (same : toDigits p q = toDigits p q') : significant p q = significant p q' := by
  obtain ⟨least, small, value, -⟩ := significant_spec some_ pos
  obtain ⟨least', small', value', -⟩ := significant_spec some_ pos'
  rw [← value, ← value'] at same
  have last : (significant p q).2 = (significant p q').2 :=
    le_antisymm (le_of_digits least small' same) (le_of_digits least' small same.symm)
  rw [last] at same
  refine Prod.ext ?_ last
  exact_mod_cast mul_right_cancel₀ (unit_pos _).ne' same

/-- So what is printed is a matter of the decimal. -/
theorem precisionForm_congr {p : Nat} (some_ : 0 < p) {q q' : ℚ} (pos : 0 < q) (pos' : 0 < q')
    (same : toDigits p q = toDigits p q') : precisionForm p q = precisionForm p q' := by
  rw [precisionForm, precisionForm, significant_congr some_ pos pos' same]
end SpnavBridge.Theory
