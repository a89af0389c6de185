/-
# Daemon.Restart -- the sensitivity that was saved, after the next start

`save_persisted_sensitivity` writes the `float` with `%g`, and `load_persisted_sensitivity`
reads the line with `strtof`.  The two are taken here with IEEE arithmetic and the texts
themselves, and everything else is as it may be.

* `loads_saved`: the loader takes whatever was saved, and what it takes is the `float` next to
  the six digits that were written.
* `survives_iff`: that is the value that was saved exactly if six digits tell it from the
  others.
-/
import SpnavBridge.Daemon.Sensitivity
import SpnavBridge.Theory.NumberText
import SpnavBridge.Theory.Precision

namespace SpnavBridge.Daemon

open SpnavBridge.Theory SpnavBridge.Kernel

set_option autoImplicit false

/-! ## `strtof` -/

/-- Whether the number is beyond the values, or between two of the smallest ones. -/
def rangeError {fmt : Format} (q : ℚ) : Value fmt → Bool
  | .nan => false
  | .inf _ => true
  | .finite _ magnitude _ =>
      magnitude < 2 ^ (fmt.precision - 1) && (magnitude : ℚ) ≠ q * 2 ^ fmt.least

theorem rangeError_of_normal {fmt : Format} {q : ℚ} {negative : Bool} {m : Nat}
    {held : fmt.Held m} (normal : 2 ^ (fmt.precision - 1) ≤ m) :
    rangeError q (.finite negative m held) = false := by
  rw [rangeError, decide_eq_false (Nat.not_lt.mpr normal), Bool.false_and]

/-- Without a number, `end` is where the text begins. -/
def strtof (a : Arithmetic) (text : CStr) : Strtof (Single a) :=
  match scanNumeral text.bytes with
  | none => ⟨(.ofSigned false 0 : Value binary32), false, 0⟩
  | some (negative, numeral, rest) =>
      let used := text.length - rest.length
      match numeral with
      | .nan => ⟨(.nan : Value binary32), false, used⟩
      | .inf => ⟨(.inf negative : Value binary32), false, used⟩
      | .number q =>
          let value : Value binary32 := .ofSigned negative q
          ⟨value, rangeError q value, used⟩

theorem strtof_number {a : Arithmetic} {text : CStr} {negative : Bool} {q : ℚ}
    {rest : List UInt8} (read : scanNumeral text.bytes = some (negative, .number q, rest)) :
    strtof a text = ⟨(.ofSigned negative q : Value binary32),
      rangeError q (.ofSigned negative q : Value binary32), text.length - rest.length⟩ := by
  unfold strtof
  rw [read]

/-! ## The range, in magnitudes -/

/-- 0.01f and 10.0f, in units of the least `float`. -/
def leastMagnitude : Nat := 10737418 * 2 ^ 119
def mostMagnitude : Nat := 10 * 2 ^ 149

theorem key_least : (least binary32).key = some leastMagnitude := by decide +kernel

theorem key_most : (most binary32).key = some mostMagnitude := by decide +kernel

section Range

variable {a : Arithmetic}

theorem inRange_iff {m : Nat} {held : binary32.Held m} {value : Single a}
    (shape : value = (.finite false m held : Value binary32)) :
    InRange value ↔ leastMagnitude ≤ m ∧ m ≤ mostMagnitude := by
  have place : (Value.finite false m held : Value binary32).key = some (m : Int) := rfl
  have low := Value.lt_eq_false place key_least
  have high := Value.lt_eq_false key_most place
  have least_le : (least binary32).le (Value.finite false m held) = true ↔ leastMagnitude ≤ m := by
    rw [Value.le_eq_true, key_least, place]
    simp
  have le_most : (Value.finite false m held).le (most binary32) = true ↔ m ≤ mostMagnitude := by
    rw [Value.le_eq_true, key_most, place]
    simp
  subst shape
  constructor
  · intro range
    exact ⟨least_le.mp (low.mp range.least), le_most.mp (high.mp range.most)⟩
  · rintro ⟨above, below⟩
    exact ⟨rfl, low.mpr (least_le.mpr above), high.mpr (le_most.mpr below)⟩

/-- A value in range is a number above zero. -/
theorem magnitude_of_inRange {value : Single a} (range : InRange value) :
    ∃ (m : Nat) (held : binary32.Held m), value = (.finite false m held : Value binary32) := by
  obtain ⟨above, -⟩ := within_of_inRange range
  obtain ⟨k, l, place, place', order⟩ := Value.le_eq_true.mp above
  rw [key_least] at place
  obtain rfl := Option.some.inj place
  have finite : (show Value binary32 from value).isFinite = true := range.finite
  change Value binary32 at value
  cases value with
  | nan => cases finite
  | inf negative => cases finite
  | finite negative m held =>
      obtain rfl := Option.some.inj place'
      cases negative with
      | false => exact ⟨m, held, rfl⟩
      | true =>
          -- it would be below zero
          have positive : (0 : Int) < leastMagnitude := by decide
          rw [Value.signed, if_pos rfl] at order
          omega

end Range

/-- The number that a magnitude stands for. -/
def number (m : Nat) : ℚ := m / 2 ^ binary32.least

section Number

variable {m : Nat}

theorem least_le_number (low : leastMagnitude ≤ m) : 10737418 / 2 ^ 30 ≤ number m := by
  have scaled : (leastMagnitude : ℚ) ≤ m := by exact_mod_cast low
  have units : (leastMagnitude : ℚ) = 10737418 / 2 ^ 30 * 2 ^ 149 := by
    norm_num [leastMagnitude]
  rw [number, le_div_iff₀ (by positivity)]
  exact units.symm.trans_le scaled

theorem number_le_most (high : m ≤ mostMagnitude) : number m ≤ 10 := by
  have scaled : (m : ℚ) ≤ mostMagnitude := by exact_mod_cast high
  have units : (mostMagnitude : ℚ) = 10 * 2 ^ 149 := by norm_num [mostMagnitude]
  rw [number, div_le_iff₀ (by positivity)]
  exact scaled.trans_eq units

end Number

/-! ## Six digits -/

section SixDigits

variable {q : ℚ} (low : 10737418 / 2 ^ 30 ≤ q) (high : q ≤ 10)
include low high

/-- What is printed is within the bounds: 0.01f, which is below 0.01, is printed as that. -/
theorem printed_bounds : 1 / 100 ≤ toDigits 6 q ∧ toDigits 6 q ≤ 10 := by
  have pos : 0 < q := lt_of_lt_of_le (by norm_num) low
  have hundredth : HasDigits 6 (1 / 100) := ⟨1, by norm_num, -2, by norm_num⟩
  have ten : HasDigits 6 10 := ⟨1, by norm_num, 1, by norm_num⟩
  refine ⟨?_, toDigits_le pos ten high⟩
  by_cases above : 1 / 100 ≤ q
  · exact le_toDigits (by decide) pos hundredth above
  · have near : |q - 1 / 100| < q / (2 * 10 ^ 6) := by
      rw [abs_of_neg (by linarith)]
      norm_num at low ⊢
      linarith
    exact (toDigits_eq_of_near pos hundredth near).ge

/-- So the loader's check passes. -/
theorem printed_inRange (a : Arithmetic) :
    InRange (F := Single a) (Value.ofRat (toDigits 6 q) : Value binary32) := by
  obtain ⟨above, below⟩ := printed_bounds low high
  have nonneg : 0 ≤ toDigits 6 q := le_trans (by norm_num) above
  have fits : (Value.ofRat 10 : Value binary32).isFinite = true := by decide +kernel
  obtain ⟨m, held, shape⟩ := Value.ofRat_finite nonneg below fits
  obtain ⟨least_, most_⟩ := (within_iff (Value.key_ofRat (toDigits 6 q))).mpr
    ⟨Value.ofRat_mono (by norm_num) above, Value.ofRat_mono nonneg below⟩
  refine ⟨?_, least_, most_⟩
  show (Value.ofRat (toDigits 6 q) : Value binary32).isFinite = true
  rw [shape]
  rfl

end SixDigits

/-! ## The line -/

theorem stops_newline : Stops [10] where
  digits := by decide
  fraction := by decide
  exponent := by decide
  plain := by decide +kernel

section Line

variable {m : Nat} (held : binary32.Held m) (low : leastMagnitude ≤ m) (high : m ≤ mostMagnitude)

/-- The text that is saved. -/
def savedText (held : binary32.Held m) : List UInt8 :=
  (formatG ((Value.finite false m held : Value binary32).convert binary64)).bytes ++ [10]

theorem widened : ∃ (m' : Nat) (held' : binary64.Held m'),
    (Value.finite false m held : Value binary32).convert binary64 = .finite false m' held' ∧
      (m' : ℚ) / 2 ^ binary64.least = number m := by
  have precision : binary32.precision ≤ binary64.precision := by decide
  have least : binary32.least ≤ binary64.least := by decide
  have largest : binary32.largest * 2 ^ (binary64.least - binary32.least) ≤ binary64.largest := by
    decide +kernel
  obtain ⟨held', shape⟩ := Value.convert_widen precision least largest false held
  refine ⟨_, held', shape, ?_⟩
  have split : (2 : ℚ) ^ binary64.least =
      2 ^ binary32.least * 2 ^ (binary64.least - binary32.least) := by
    rw [← pow_add]
    rfl
  have step : (2 : ℚ) ^ (binary64.least - binary32.least) ≠ 0 := by positivity
  rw [number, split]
  push_cast
  exact mul_div_mul_right _ _ step

include low high

theorem scan_savedText :
    scanNumeral (savedText held) = some (false, .number (toDigits 6 (number m)), [10]) := by
  obtain ⟨m', held', shape, value⟩ := widened held
  have above := least_le_number low
  have below := number_le_most high
  rw [savedText, shape, scanNumeral_formatG held' ?_ ?_ stops_newline, value]
  · rw [value]
    norm_num at above ⊢
    linarith
  · rw [value]
    norm_num
    linarith

/-- It is one line, which the loader's array has room for. -/
theorem fgets_savedText : ∃ line : CBuf 63, fgets 63 (savedText held) = some line ∧
    line.str.bytes = savedText held ∧ 1 < line.str.length := by
  obtain ⟨m', held', shape, value⟩ := widened held
  have above := least_le_number low
  have below := number_le_most high
  have low' : 1 / 10 ^ 4 ≤ (m' : ℚ) / 2 ^ binary64.least := by
    rw [value]
    norm_num at above ⊢
    linarith
  have high' : (m' : ℚ) / 2 ^ binary64.least < 10 ^ 5 := by
    rw [value]
    norm_num
    linarith
  have plain := formatG_bytes held' low' high'
  have short := length_formatG_le held' low' high'
  have some_ := List.length_pos_iff.mpr (formatG_ne_nil held' low' high')
  rw [savedText, shape]
  generalize (formatG (.finite false m' held')).bytes = text at plain short some_ ⊢
  have newline : ∀ b ∈ text, (decide (b ≠ 10)) = true := fun b mem =>
    Plain.of_digits (P := fun b => decide (b ≠ 10) = true) (by decide) (by decide) (plain b mem)
  have nul : (0 : UInt8) ∉ text ++ [10] := by
    intro mem
    rcases List.mem_append.mp mem with inside | last
    · exact Plain.of_digits (P := (· ≠ 0)) (by decide) (by decide) (plain 0 inside) rfl
    · revert last
      decide
  have whole : (text ++ [10]).takeWhile (· ≠ 10) ++
      ((text ++ [10]).dropWhile (· ≠ 10)).take 1 = text ++ [10] := by
    rw [List.takeWhile_append_of_pos newline, List.dropWhile_append_of_pos newline]
    simp
  have length : (CStr.ofBytes (text ++ [10])).length = text.length + 1 := by
    rw [CStr.length, CStr.bytes_ofBytes nul, List.length_append]
    rfl
  have line : (CBuf.printf 63 (.ofBytes (text ++ [10]))).str = .ofBytes (text ++ [10]) :=
    CBuf.printf_of_fits (by omega)
  refine ⟨.printf 63 (.ofBytes (text ++ [10])), ?_, ?_, ?_⟩
  · rw [fgets, if_neg (by simp), whole]
  · rw [line, CStr.bytes_ofBytes nul]
  · rw [line, length]
    omega

end Line

/-! ## The next start -/

variable {a : Arithmetic}

/-- The bridge starts without `--sensitivity`, on the state directory in which it has saved
`value` before. -/
structure Restart (a : Arithmetic) (o : Outside (Double a)) (w : World (Single a))
    (value : Single a) (sys : System (Single a)) (argv : List CStr) (opts : Options (Single a)) :
    Prop where
  printG : o.printG = @formatG binary64
  strtof : sys.strtof = Daemon.strtof a
  savable : o.savable = true
  parsed : parseArguments sys (.default sys) argv = some opts
  silent : opts.sensitivityFromCli = false
  runs : opts.doctorRequested = false
  file : sys.files (sensitivityConfPath (.printf 511 opts.stateDir)).str =
    (savePersistedSensitivity o w value).saved.map (·.bytes)

section Restart

variable {o : Outside (Double a)} {w : World (Single a)} {sys : System (Single a)}
  {argv : List CStr} {opts : Options (Single a)}

/-- **The loader takes whatever was saved**, as the six digits say. -/
theorem Restart.loads {m : Nat} {held : binary32.Held m}
    (restart : Restart a o w (Value.finite false m held : Value binary32) sys argv opts)
    (low : leastMagnitude ≤ m) (high : m ≤ mostMagnitude) :
    loadPersistedSensitivity sys (.printf 511 opts.stateDir) =
      some (Value.ofRat (toDigits 6 (number m)) : Value binary32) := by
  obtain ⟨line, first, bytes, long⟩ := fgets_savedText held low high
  have written : (savePersistedSensitivity o w (Value.finite false m held : Value binary32)).saved.map
      (·.bytes) = some (savedText held) := by
    unfold savePersistedSensitivity
    rw [if_pos restart.savable]
    show some ((o.printG _).bytes ++ (CStr.lit "\n").bytes) = _
    rw [restart.printG, show (CStr.lit "\n").bytes = [10] by decide]
    rfl
  have least_ := least_le_number low
  have most_ := number_le_most high
  have range := printed_inRange least_ most_ a
  have nonneg : 0 ≤ toDigits 6 (number m) :=
    le_trans (by norm_num) (printed_bounds least_ most_).1
  obtain ⟨m', held', shape⟩ := magnitude_of_inRange range
  change Value.ofRat (toDigits 6 (number m)) = Value.finite false m' held' at shape
  have normal : 2 ^ (binary32.precision - 1) ≤ m' :=
    le_trans (by decide) ((inRange_iff shape).mp range).1
  have read : sys.strtof line.str = ⟨(.ofRat (toDigits 6 (number m)) : Value binary32), false,
      line.str.length - [(10 : UInt8)].length⟩ := by
    rw [restart.strtof, strtof_number (by rw [bytes]; exact scan_savedText held low high),
      ← Value.ofRat_eq nonneg, shape, rangeError_of_normal normal]
  unfold loadPersistedSensitivity
  rw [restart.file, written, Option.bind_some, first]
  dsimp only
  rw [read]
  refine if_pos ?_
  have used : line.str.length - [(10 : UInt8)].length ≠ 0 := Nat.sub_ne_zero_of_lt long
  simp only [Bool.and_eq_true, Bool.not_eq_true', decide_eq_true_eq]
  exact ⟨⟨⟨⟨trivial, used⟩, range.finite⟩, range.least⟩, range.most⟩

theorem Restart.starts {m : Nat} {held : binary32.Held m}
    (restart : Restart a o w (Value.finite false m held : Value binary32) sys argv opts)
    (low : leastMagnitude ≤ m) (high : m ≤ mostMagnitude) :
    startUp sys argv = some { opts with
      sensitivity := (Value.ofRat (toDigits 6 (number m)) : Value binary32) } :=
  startUp_of_loaded restart.parsed restart.silent restart.runs (restart.loads low high)

/-- A `float` that is the nearest one to six digits is printed as these. -/
theorem toDigits_of_ofRat {m : Nat} {held : binary32.Held m} (low : leastMagnitude ≤ m)
    {d : ℚ} (digits : HasDigits 6 d) (shape : Value.ofRat d = Value.finite false m held) :
    toDigits 6 (number m) = d := by
  have bottom := least_le_number low
  have nonneg : 0 ≤ d := by
    obtain ⟨n, -, e, rfl⟩ := digits
    exact mul_nonneg (Nat.cast_nonneg n) (unit_pos e).le
  have large : 2 ^ binary32.precision < m := lt_of_lt_of_le (by decide) low
  have near := Value.ofRat_near nonneg shape large
  change |number m - d| ≤ d / 2 ^ 24 at near
  refine toDigits_eq_of_near (lt_of_lt_of_le (by norm_num) bottom) digits (near.trans_lt ?_)
  obtain ⟨close, -⟩ := abs_le.mp near
  norm_num at close bottom ⊢
  linarith

/-- **What survives a restart.**  Nothing that was saved is rejected, and the value comes back
exactly if it is the `float` next to a number of six digits. -/
theorem survives_iff {value : Single a} (range : InRange value)
    (restart : Restart a o w value sys argv opts) :
    (∃ loaded, loadPersistedSensitivity sys (.printf 511 opts.stateDir) = some loaded) ∧
      (startUp sys argv = some { opts with sensitivity := value } ↔
        ∃ d, HasDigits 6 d ∧ value = (Value.ofRat d : Value binary32)) := by
  obtain ⟨m, held, rfl⟩ := magnitude_of_inRange range
  obtain ⟨low, high⟩ := (inRange_iff rfl).mp range
  refine ⟨⟨_, restart.loads low high⟩, ?_⟩
  rw [restart.starts low high]
  constructor
  · intro same
    injection same with same
    injection same with _ _ _ _ _ same
    have pos : 0 < number m := lt_of_lt_of_le (by norm_num) (least_le_number low)
    exact ⟨_, hasDigits_toDigits (by decide) pos, same.symm⟩
  · rintro ⟨d, digits, same⟩
    have printed := toDigits_of_ofRat low digits same.symm
    rw [printed, ← same]

end Restart

/-! ### Two values -/

/-- None of the operations takes part in a start. -/
def idle : Arithmetic :=
  ⟨fun x _ => x, fun x _ => x, fun x _ => x, fun x _ => x, id, fun _ => .nan, .nan, id, id, id,
    fun _ => 0⟩

def writing : Outside (Double idle) where
  lib := ⟨fun _ => none, fun _ => []⟩
  digest _ := .zeroed 28
  printG := @formatG binary64
  savable := true
  envs _ := ⟨fun _ => 0, 0, 0⟩

/-- The system on which `value` has been saved, with an environment that is empty. -/
def found (value : Single idle) : System (Single idle) where
  getenv _ := none
  strtof := strtof idle
  files _ := (savePersistedSensitivity writing ⟨value, [], none, 0⟩ value).saved.map (·.bytes)

theorem restart_found (value : Single idle) :
    Restart idle writing ⟨value, [], none, 0⟩ value (found value) [] (.default (found value)) :=
  ⟨rfl, rfl, rfl, rfl, rfl, rfl, rfl⟩

/-- A decimal within the bounds. -/
def decimalValue (q : ℚ) : Single idle := (Value.ofRat q : Value binary32)

theorem survives_six_tenths :
    startUp (found (decimalValue (6 / 10))) [] =
      some { Options.default (found (decimalValue (6 / 10))) with
        sensitivity := decimalValue (6 / 10) } := by
  have passes : (Value.ofRat (6 / 10) : Value binary32).isFinite = true ∧
      (Value.ofRat (6 / 10) : Value binary32).lt (least binary32) = false ∧
      (most binary32).lt (Value.ofRat (6 / 10) : Value binary32) = false := by decide +kernel
  have range : InRange (decimalValue (6 / 10)) := ⟨passes.1, passes.2.1, passes.2.2⟩
  exact (survives_iff range (restart_found _)).2.mpr
    ⟨6 / 10, ⟨6, by norm_num, -1, by norm_num⟩, rfl⟩

/-- **A third comes back as 0.333333.** -/
theorem third_lost :
    InRange (decimalValue (1 / 3)) ∧
      Restart idle writing ⟨decimalValue (1 / 3), [], none, 0⟩ (decimalValue (1 / 3))
        (found (decimalValue (1 / 3))) [] (.default (found (decimalValue (1 / 3)))) ∧
      startUp (found (decimalValue (1 / 3))) [] =
        some { Options.default (found (decimalValue (1 / 3))) with
          sensitivity := decimalValue (333333 / 1000000) } ∧
      decimalValue (333333 / 1000000) ≠ decimalValue (1 / 3) := by
  have passes : (Value.ofRat (1 / 3) : Value binary32).isFinite = true ∧
      (Value.ofRat (1 / 3) : Value binary32).lt (least binary32) = false ∧
      (most binary32).lt (Value.ofRat (1 / 3) : Value binary32) = false := by decide +kernel
  have range : InRange (decimalValue (1 / 3)) := ⟨passes.1, passes.2.1, passes.2.2⟩
  have keys : (Value.ofRat (1 / 3) : Value binary32).key = some (11184811 * 2 ^ 124) ∧
      (Value.ofRat (333333 / 1000000) : Value binary32).key ≠ some (11184811 * 2 ^ 124) := by
    decide +kernel
  have restart := restart_found (decimalValue (1 / 3))
  refine ⟨range, restart, ?_, fun same => keys.2 ?_⟩
  · obtain ⟨m, held, shape⟩ := magnitude_of_inRange range
    obtain ⟨low, high⟩ := (inRange_iff shape).mp range
    have magnitude : m = 11184811 * 2 ^ 124 := by
      have key := keys.1
      rw [show (Value.ofRat (1 / 3) : Value binary32) = .finite false m held from shape] at key
      have same := Option.some.inj key
      rw [Value.signed, if_neg Bool.false_ne_true] at same
      exact_mod_cast same
    have printed : toDigits 6 (number m) = 333333 / 1000000 := by
      rw [magnitude]
      decide +kernel
    rw [shape] at restart
    have starts := restart.starts low high
    rw [printed, ← shape] at starts
    exact starts
  · rw [← keys.1]
    exact congrArg Value.key same

end SpnavBridge.Daemon
