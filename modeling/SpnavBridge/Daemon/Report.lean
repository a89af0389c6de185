/-
# Daemon.Report -- what a page reads of the sensitivity it can send back

A GET of `/spnav/sensitivity` tells the value in effect, with six digits, as JSON.  Posted as
it is, that text is accepted whatever the value was, and the value that it sets is told by the
same text.  So a page that restores what it has read changes nothing that it could see
(`report_stands`), and it may do so again and again.
-/
import SpnavBridge.Daemon.Answers
import SpnavBridge.Daemon.Restart
import SpnavBridge.Kernel.Readable

namespace SpnavBridge.Daemon

open SpnavBridge.Theory SpnavBridge.Wire SpnavBridge.Kernel

set_option autoImplicit false
set_option linter.unusedSectionVars false

/-! ## The text -/

section Text

variable {D F : Type} [CFloat F] [CDouble D F]

/-- `respbody` -/
def reportText (o : Outside D) (value : F) : CBuf 63 :=
  .printf 63 ((CStr.lit "\x7b\"sensitivity\": ").append
    ((o.printG (CDouble.widen value)).append (.lit "\x7d")))

theorem reportSensitivity_eq (o : Outside D) (w : World F) (hdr : CBuf 511) :
    reportSensitivity o w hdr =
      .readOut :: sendHttpResponse 200 (.lit "OK") hdr.str (reportText o w.sensitivity).str := rfl

end Text

/-- The number's text, in an object of one member. -/
def memberText (text : List UInt8) : List UInt8 := ascii "\x7b\"sensitivity\": " ++ (text ++ [125])

theorem memberText_cons (text : List UInt8) : memberText text =
    123 :: (printString (.lit "sensitivity") ++ 58 :: 32 :: (text ++ [125])) := by
  have front : ascii "\x7b\"sensitivity\": " =
      123 :: (printString (.lit "sensitivity") ++ [58, 32]) := by decide
  rw [memberText, front]
  simp

theorem space_blank (r : List UInt8) : Blanks (32 :: r) r := ⟨[32], by simp, rfl⟩

theorem memberText_grammar {text : List UInt8} (isNumber : IsNumber text) :
    JsonValue (memberText text) [] := by
  have name := jsonChars_printed (CStr.lit "sensitivity").bytes (58 :: 32 :: (text ++ [125]))
  rw [memberText_cons, printString_cons]
  have value := JsonValue.number isNumber [125]
  exact .object (.members (.last (.refl _) name (.refl _) (space_blank _) value (.refl _)))

/-- **The text is read as the number that it tells.** -/
theorem parse_memberText (a : Arithmetic) {text : List UInt8} {q : ℚ}
    (reads : ReadsAs text false q) :
    (bridgeJson a).parseWithLength (memberText text) = some (.object [(.lit "sensitivity",
      .number (show Double a from (Value.ofSigned false q : Value binary64)))]) := by
  have opts := (memberText_grammar reads.isNumber).parseWithLengthOpts
    (Value.ofSigned : Bool → ℚ → Value binary64)
  have value : parseValue Value.ofSigned 999 (text ++ [125]) =
      some (.number (Value.ofSigned false q : Value binary64), [125]) := by
    obtain ⟨b, rest, shape, first⟩ := reads.isNumber.head
    have number := reads.parseNumber (Value.ofSigned : Bool → ℚ → Value binary64)
      (not_goesOn_cons (show isNumberByte 125 = false by decide) [])
    rw [shape, List.cons_append] at number ⊢
    rw [parseValue_number _ _ _ first, number]
    rfl
  have between : bufferSkipWhitespace (32 :: (text ++ [125])) = text ++ [125] :=
    (space_blank _).skip_value (.number reads.isNumber [125])
  have name := parseString_printed (.lit "sensitivity") (58 :: 32 :: (text ++ [125]))
  show (parseWithLengthOpts Value.ofSigned (memberText text)).map (·.1) = _
  rw [opts, memberText_cons, show nestingLimit = 999 + 1 from rfl, parseValue_object, parseObject]
  rw [printString_cons] at name ⊢
  rw [skip_cons (by decide)]
  dsimp only
  rw [if_neg (by decide), parseMembers, skip_cons (by decide), name]
  dsimp only
  rw [skip_cons (by decide)]
  dsimp only
  rw [if_pos rfl, between, value]
  rfl

/-! ## The value that is posted -/

theorem key_ofRat_double :
    (Value.ofRat (1 / 2 ^ 7) : Value binary64).key = some ((2 ^ 1067 : Nat) : Int) := by
  decide +kernel

theorem key_ofRat_single :
    (Value.ofRat (1 / 2 ^ 7) : Value binary32).key = some ((2 ^ 142 : Nat) : Int) := by
  decide +kernel

/-- A number that is not small has all the bits that there are. -/
theorem large_of_le {fmt : Format} {q : ℚ} {j m : Nat} {held : fmt.Held m}
    (key : (Value.ofRat (1 / 2 ^ 7) : Value fmt).key = some ((2 ^ j : Nat) : Int))
    (bits : fmt.precision < j) (low : 1 / 2 ^ 7 ≤ q)
    (shape : (Value.ofRat q : Value fmt) = .finite false m held) : 2 ^ fmt.precision < m := by
  have above : (Value.ofRat (1 / 2 ^ 7) : Value fmt).le (Value.ofRat q) = true :=
    Value.ofRat_mono (by positivity) low
  obtain ⟨x, y, place, place', order⟩ := Value.le_eq_true.mp above
  rw [key] at place
  rw [shape] at place'
  obtain rfl := Option.some.inj place
  obtain rfl : (m : Int) = y := Option.some.inj place'
  exact lt_of_lt_of_le (Nat.pow_lt_pow_right (by decide) bits) (Int.ofNat_le.mp order)

/-- **What a decimal within the bounds becomes**, through a `double`. -/
theorem convert_of_within {t : ℚ} (low : 1 / 100 ≤ t) (high : t ≤ 10) :
    ∃ (m : Nat) (held : binary32.Held m),
      (Value.ofSigned false t : Value binary64).convert binary32 = .finite false m held ∧
        |number m - t| ≤ t / 2 ^ 23 := by
  have nonneg : 0 ≤ t := le_trans (by norm_num) low
  have fits : (Value.ofRat 10 : Value binary64).isFinite = true := by decide +kernel
  obtain ⟨r, held, shape⟩ := Value.ofRat_finite nonneg high fits
  have large := large_of_le key_ofRat_double (by decide) (le_trans (by norm_num) low) shape
  have near := Value.ofRat_near nonneg shape large
  rw [Value.ofRat_eq nonneg] at shape
  rw [shape, Value.convert_eq_ofRat]
  change |(r : ℚ) / 2 ^ binary64.least - t| ≤ t / 2 ^ 53 at near
  generalize (r : ℚ) / 2 ^ binary64.least = d at near ⊢
  obtain ⟨below, above⟩ := abs_le.mp near
  have low' : 1 / 2 ^ 7 ≤ d := by
    norm_num at below low ⊢
    linarith
  have high' : d ≤ 11 := by
    norm_num at above ⊢
    linarith
  have nonneg' : 0 ≤ d := le_trans (by positivity) low'
  have fits' : (Value.ofRat 11 : Value binary32).isFinite = true := by decide
  obtain ⟨m, held', shape'⟩ := Value.ofRat_finite nonneg' high' fits'
  have large' := large_of_le key_ofRat_single (by decide) low' shape'
  have near' := Value.ofRat_near nonneg' shape' large'
  change |number m - d| ≤ d / 2 ^ 24 at near'
  refine ⟨m, held', shape', ?_⟩
  obtain ⟨below', above'⟩ := abs_le.mp near'
  norm_num at below above below' above' ⊢
  rw [abs_le]
  constructor <;> linarith

/-- It is printed as the decimal again. -/
theorem toDigits_of_within {m : Nat} {t : ℚ} (low : 1 / 100 ≤ t) (digits : HasDigits 6 t)
    (near : |number m - t| ≤ t / 2 ^ 23) : toDigits 6 (number m) = t := by
  obtain ⟨below, above⟩ := abs_le.mp near
  norm_num at below above low
  refine toDigits_eq_of_near (by linarith) digits ?_
  norm_num
  rw [abs_lt]
  constructor <;> linarith

/-! ## What is told -/

section Told

variable {m : Nat} (held : binary32.Held m) (low : leastMagnitude ≤ m) (high : m ≤ mostMagnitude)
include low high

theorem reads_formatG :
    (formatG ((Value.finite false m held : Value binary32).convert binary64)).bytes =
        precisionForm 6 (number m) ∧
      ReadsAs (precisionForm 6 (number m)) false (toDigits 6 (number m)) := by
  obtain ⟨m', held', shape, value⟩ := widened held
  have pos : 0 < number m := lt_of_lt_of_le (by norm_num) (least_le_number low)
  have some_ : m' ≠ 0 := by
    rintro rfl
    rw [← value, Nat.cast_zero, zero_div] at pos
    exact lt_irrefl _ pos
  have reads := formatPrecision_readsAs held' some_ false (p := 6) (by decide) (by decide)
  have text : formatPrecision 6 (.finite false m' held') = precisionForm 6 (number m) := by
    rw [formatPrecision, if_neg some_, value]
    rfl
  rw [text, value] at reads
  refine ⟨?_, reads⟩
  have noNul : (0 : UInt8) ∉ precisionForm 6 (number m) := fun mem =>
    absurd (reads.isNumber.numeric 0 mem) (by decide)
  rw [shape, formatG_eq_precision, text, CStr.bytes_ofBytes noNul]

variable {a : Arithmetic} {o : Outside (Double a)} (printG : o.printG = @formatG binary64)
include printG

/-- The array has room for what is told. -/
theorem reportText_bytes :
    (reportText o (show Single a from (.finite false m held : Value binary32))).str.bytes =
      memberText (precisionForm 6 (number m)) := by
  obtain ⟨text, reads⟩ := reads_formatG held low high
  have front : (CStr.lit "\x7b\"sensitivity\": ").bytes = ascii "\x7b\"sensitivity\": " := by
    decide
  have last : (CStr.lit "\x7d").bytes = [125] := by decide
  have whole : ((CStr.lit "\x7b\"sensitivity\": ").append
      ((o.printG (CDouble.widen (show Single a from (.finite false m held : Value binary32)))).append
        (.lit "\x7d"))).bytes = memberText (precisionForm 6 (number m)) := by
    show (CStr.lit _).bytes ++ ((o.printG _).bytes ++ (CStr.lit _).bytes) = _
    rw [printG, front, last, memberText]
    exact congrArg (fun text => _ ++ (text ++ _)) text
  have fits : (memberText (precisionForm 6 (number m))).length ≤ 63 := by
    have short := reads.short
    have sixteen : (ascii "\x7b\"sensitivity\": ").length = 16 := by decide
    rw [memberText, List.length_append, List.length_append, sixteen, List.length_singleton]
    omega
  rw [← whole] at fits ⊢
  exact congrArg CStr.bytes (CBuf.printf_of_fits fits)

variable (lib : o.lib = bridgeJson a)
include lib

/-- **What is told is accepted**, and the value that it sets is told alike. -/
theorem posted_report : ∃ value : Single a,
    requestedSensitivity o
        (reportText o (show Single a from (.finite false m held : Value binary32))).str.bytes =
      some value ∧
    (reportText o value).str.bytes = memberText (precisionForm 6 (number m)) := by
  obtain ⟨-, reads⟩ := reads_formatG held low high
  obtain ⟨above, below⟩ := printed_bounds (least_le_number low) (number_le_most high)
  have pos : 0 < number m := lt_of_lt_of_le (by norm_num) (least_le_number low)
  obtain ⟨m', held', shape, near⟩ := convert_of_within above below
  have nonneg : 0 ≤ toDigits 6 (number m) := le_trans (by norm_num) above
  have key : ∃ k, (Value.ofRat (toDigits 6 (number m)) : Value binary64).key = some k :=
    Value.key_ofRat _
  obtain ⟨least_, most_⟩ := (within_iff key).mpr
    ⟨Value.ofRat_mono (by norm_num) above, Value.ofRat_mono nonneg below⟩
  rw [Value.ofRat_eq nonneg] at least_ most_
  have asked : requestedSensitivity o
      (reportText o (show Single a from (.finite false m held : Value binary32))).str.bytes =
        some (show Single a from (.finite false m' held' : Value binary32)) := by
    rw [reportText_bytes held low high printG]
    unfold requestedSensitivity
    rw [lib, parse_memberText a reads]
    have found : ∀ item : Json (Double a),
        Json.getObjectItem [(CStr.lit "sensitivity", item)] (.lit "sensitivity") = some item := by
      intro item
      simp [Json.getObjectItem]
    dsimp only
    rw [found]
    show (if (!((Value.ofSigned false _ : Value binary64).convert binary32).isFinite ||
      (Value.ofSigned false _).lt (least binary64) ||
        (most binary64).lt (Value.ofSigned false _)) = true then none
      else some ((Value.ofSigned false _ : Value binary64).convert binary32)) = _
    rw [least_, most_, shape]
    rfl
  have range := requestedSensitivity_inRange (bounds_ieee a) asked
  obtain ⟨low', high'⟩ := (inRange_iff rfl).mp range
  refine ⟨_, asked, ?_⟩
  have same := toDigits_of_within above (hasDigits_toDigits (by decide) pos) near
  have pos' : 0 < number m' := lt_of_lt_of_le (by norm_num) (least_le_number low')
  rw [reportText_bytes held' low' high' printG, precisionForm_congr (by decide) pos' pos same]

end Told

/-! ## Asking -/

section Asking

variable {D F : Type} [CFloat F] [CDouble D F]

/-- A page that may asks for the sensitivity, or sets it. -/
structure SensitivityRequest (method : String) (req : HttpRequest) : Prop where
  plain : req.isWsUpgrade = false
  allowed : originAllowed req.origin.str = true
  path : req.path.str = .lit "/spnav/sensitivity"
  method : req.method.str = .lit method

/-- The answer is a 200 with this body, and nothing else. -/
structure AnswersWith (handled : World F × Option (Controller F) × List (Act F)) (body : List UInt8) :
    Prop where
  plain : handled.2.1 = none
  response : ∃ r, readResponse (queuedData handled.2.2).flatten = some (r, []) ∧
    r.status = 200 ∧ r.body = body

theorem report_response (o : Outside D) (w : World F) (req : HttpRequest) :
    ∃ r, readResponse
        (queuedData (reportSensitivity o w (appendCorsHeader req jsonHeader))).flatten =
          some (r, []) ∧ r.status = 200 ∧ r.body = (reportText o w.sensitivity).str.bytes := by
  obtain ⟨fields, extra, renders⟩ := json_extra req
  have small : (reportText o w.sensitivity).str.length < 1000 :=
    lt_of_le_of_lt (reportText o w.sensitivity).fits (by decide)
  have known : 200 ∈ [200, 204, 400, 403, 404, 405] := by decide
  have clean : 13 ∉ (CStr.lit "OK").bytes := by decide
  have sends := sends_sendHttpResponse (F := F) extra renders (appendCorsHeader req jsonHeader).fits
    known clean (by decide) small
  have whole := sends.reads []
  rw [List.append_nil] at whole
  rw [reportSensitivity_eq]
  exact ⟨_, whole, rfl, rfl⟩

theorem handled_get (o : Outside D) (w : World F) {req : HttpRequest}
    (asks : SensitivityRequest "GET" req) (body : List UInt8) : handleHttpRequest o w req body =
      (w, none, reportSensitivity o w (appendCorsHeader req jsonHeader)) := by
  have options : (CStr.lit "GET") ≠ .lit "OPTIONS" := by decide
  have post : (CStr.lit "GET") ≠ .lit "POST" := by decide
  have path : (CStr.lit "/spnav/sensitivity") ≠ .lit "/3dconnexion/nlproxy" := by decide
  unfold handleHttpRequest handlePlainRequest handleSensitivityRequest
  rw [asks.plain, asks.allowed, asks.method, asks.path, if_neg Bool.false_ne_true, if_neg options,
    if_neg path, if_pos rfl, if_neg post]
  rfl

theorem handled_post (o : Outside D) (w : World F) {req : HttpRequest}
    (asks : SensitivityRequest "POST" req) {body : List UInt8} {value : F}
    (asked : requestedSensitivity o body = some value) :
    handleHttpRequest o w req body = (applySensitivity o w value, none, .assign value ::
      reportSensitivity o (applySensitivity o w value) (appendCorsHeader req jsonHeader)) := by
  have options : (CStr.lit "POST") ≠ .lit "OPTIONS" := by decide
  have path : (CStr.lit "/spnav/sensitivity") ≠ .lit "/3dconnexion/nlproxy" := by decide
  unfold handleHttpRequest handlePlainRequest handleSensitivityRequest
  rw [asks.plain, asks.allowed, asks.method, asks.path, if_neg Bool.false_ne_true, if_neg options,
    if_neg path, if_pos rfl, if_pos rfl, asked]
  rfl

theorem applySensitivity_sensitivity (o : Outside D) (w : World F) (value : F) :
    (applySensitivity o w value).sensitivity = value := by
  unfold applySensitivity savePersistedSensitivity
  split_ifs <;> rfl

end Asking

/-- **What the bridge tells of the sensitivity stands.**  At any time in any run, a GET is answered
with JSON that a POST may send back: it is accepted, it is answered with the same text, and so is
every GET behind it. -/
theorem report_stands (a : Arithmetic) (p : Platform (Double a)) (lib : p.lib = bridgeJson a)
    (printG : p.printG = @formatG binary64) {sensitivity : Single a} (range : InRange sensitivity)
    (saved : Option CStr) (polls : List PollResult) :
    ∃ (told : List UInt8) (value : Single a), JsonValue told [] ∧
      (∀ w req body, SensitivityRequest "GET" req →
        w.sensitivity = ((mainLoop p sensitivity saved).after polls).shared.sensitivity ∨
            w.sensitivity = value →
          (handleHttpRequest p.toOutside w req body).1 = w ∧
            AnswersWith (handleHttpRequest p.toOutside w req body) told) ∧
      (∀ w req, SensitivityRequest "POST" req →
        (handleHttpRequest p.toOutside w req told).1.sensitivity = value ∧
          AnswersWith (handleHttpRequest p.toOutside w req told) told) := by
  have agrees := (run_moves p sensitivity saved polls).keeps
    (fun b b' move => Move.agrees (bounds_ieee a) move) (agrees_start range saved)
  have range' := (agrees ⟨0, by decide⟩).range
  dsimp only at range'
  generalize ((mainLoop p sensitivity saved).after polls).shared.sensitivity = current at range' ⊢
  obtain ⟨m, held, rfl⟩ := magnitude_of_inRange range'
  obtain ⟨low, high⟩ := (inRange_iff rfl).mp range'
  have bytes := reportText_bytes held low high printG
  obtain ⟨value, asked, same⟩ := posted_report held low high printG lib
  rw [bytes] at asked
  refine ⟨_, value, memberText_grammar (reads_formatG held low high).2.isNumber, ?_, ?_⟩
  · intro w req body asks is
    rw [handled_get _ _ asks]
    obtain ⟨r, read, ok, told⟩ := report_response p.toOutside w req
    refine ⟨rfl, rfl, r, read, ok, told.trans ?_⟩
    rcases is with is | is
    · rw [is]
      exact bytes
    · rw [is]
      exact same
  · intro w req asks
    rw [handled_post _ _ asks asked]
    have now := applySensitivity_sensitivity p.toOutside w value
    obtain ⟨r, read, ok, told⟩ := report_response p.toOutside
      (applySensitivity p.toOutside w value) req
    rw [now, same] at told
    exact ⟨now, rfl, r, read, ok, told⟩

/-- A clock that stands still is monotone. -/
theorem still_monotone {m n : Nat} (_ : m ≤ n) : (0 : Int) ≤ 0 := le_rfl

/-- A third, with more digits than are kept. -/
def thirdRequest : List UInt8 :=
  ascii "POST /spnav/sensitivity HTTP/1.1\r\nOrigin: https://cad.onshape.com\r\n" ++
    ascii "Content-Length: 29\r\n\r\n\x7b\"sensitivity\": 0.3333333333\x7d"

/-- Whoever connects sends it. -/
def posting : Platform (Double idle) where
  toOutside := { writing with lib := bridgeJson idle }
  clock _ := 0
  monotone := @still_monotone
  sslAccept _ := .done
  sslWrite _ _ := .wantWrite
  sslRead _ room :=
    if fits : thirdRequest ≠ [] ∧ thirdRequest.length ≤ room then
      .got thirdRequest fits.1 fits.2
    else .wantRead
  sslPending _ := false
  created _ := true

/-- A connection, and its request. -/
def thirdPosted : List PollResult :=
  [.ready ⟨some (5, true), [], false, fun _ => 0⟩, .ready ⟨none, [], false, fun _ => pollIn⟩]

def pageRequest (method : String) : HttpRequest :=
  { HttpRequest.zeroed with
    method := .printf 7 (.lit method)
    path := .printf 255 (.lit "/spnav/sensitivity")
    origin := .printf 255 (.lit "https://cad.onshape.com") }

/-- The world behind the request. -/
def thirdWorld : World (Single idle) :=
  ⟨((mainLoop posting defaultSensitivity none).after thirdPosted).shared.sensitivity, [], none, 0⟩

theorem thirdWorld_report : (reportText posting.toOutside thirdWorld.sensitivity).str.bytes =
    ascii "\x7b\"sensitivity\": 0.333333\x7d" := by
  decide +kernel

/-- What is told of it has six of its digits, and stands. -/
theorem report_stands_third :
    let told := ascii "\x7b\"sensitivity\": 0.333333\x7d"
    JsonValue told [] ∧
      AnswersWith (handleHttpRequest posting.toOutside thirdWorld (pageRequest "GET") []) told ∧
      AnswersWith (handleHttpRequest posting.toOutside thirdWorld (pageRequest "POST") told) told := by
  intro six
  obtain ⟨told, value, json, get, post⟩ :=
    report_stands idle posting rfl rfl (bounds_ieee idle).initial none thirdPosted
  have gets : SensitivityRequest "GET" (pageRequest "GET") :=
    ⟨rfl, by decide, by decide, by decide⟩
  have posts : SensitivityRequest "POST" (pageRequest "POST") :=
    ⟨rfl, by decide, by decide, by decide⟩
  have now : thirdWorld.sensitivity =
      ((mainLoop posting defaultSensitivity none).after thirdPosted).shared.sensitivity := by
    rw [thirdWorld]
  have answered := (get thirdWorld _ [] gets (Or.inl now)).2
  -- the answer to the GET is the report
  have is : told = six := by
    obtain ⟨-, r, read, -, body⟩ := answered
    obtain ⟨r', read', -, body'⟩ := report_response posting.toOutside thirdWorld (pageRequest "GET")
    rw [handled_get _ _ gets, read'] at read
    obtain ⟨rfl, -⟩ := Prod.mk.inj (Option.some.inj read)
    exact body.symm.trans (body'.trans thirdWorld_report)
  subst is
  exact ⟨json, answered, (post thirdWorld _ posts).2⟩

end SpnavBridge.Daemon
