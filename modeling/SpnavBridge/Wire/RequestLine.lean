/-
# Wire.RequestLine -- which method and path a request line gives

The request line goes through the 1024-byte copy and through `sscanf` with `%7s %255s`.
What that scans, in terms of the words of the copy, is `scanned`: where the first word is too
long, its rest is taken for the path.  `strict_iff` says for which buffers the parser is
`Strict` all the same: it rejects the request line, or has the complete first and second word
of the line that was sent.
-/
import SpnavBridge.Theory.Words
import SpnavBridge.Wire.Origins

namespace SpnavBridge.Wire

open SpnavBridge.Theory

set_option autoImplicit false

/-! ## One scan -/

/-- What `%7s %255s` makes of the words of a line. -/
def scanned : List (List UInt8) → Option (List UInt8 × List UInt8)
  | [] => none
  | method :: rest =>
      if 7 < method.length then some (method.take 7, (method.drop 7).take 255)
      else rest.head?.map fun path => (method, path.take 255)

theorem scanToken_token (width : Nat) (s : CStr) :
    (scanToken width s).1.str.bytes = (firstWord isspace s.bytes).take width := rfl

theorem scanToken_rest (width : Nat) (s : CStr) :
    (scanToken width s).2.bytes =
      (firstWord isspace s.bytes).drop width ++ behindWord isspace s.bytes := by
  have parts : s.bytes.dropWhile isspace = firstWord isspace s.bytes ++ behindWord isspace s.bytes :=
    List.takeWhile_append_dropWhile.symm
  have rest : (scanToken width s).2.bytes =
      (s.bytes.dropWhile isspace).drop ((firstWord isspace s.bytes).take width).length := rfl
  rw [rest, parts, List.length_take, List.drop_append]
  by_cases long : width ≤ (firstWord isspace s.bytes).length
  · rw [Nat.min_eq_left long, Nat.sub_eq_zero_of_le long, List.drop_zero]
  · have short := Nat.le_of_not_le long
    rw [Nat.min_eq_right short, Nat.sub_self, List.drop_zero, List.drop_of_length_le short,
      List.drop_of_length_le (Nat.le_refl _)]

theorem scanToken_of_words {width : Nat} {s : CStr} {word : List UInt8} {rest : List (List UInt8)}
    (is : words isspace s.bytes = word :: rest) :
    (scanToken width s).1.str.bytes = word.take width ∧
      words isspace (scanToken width s).2.bytes =
        if width < word.length then word.drop width :: rest else rest := by
  rw [words_eq] at is
  split at is
  · cases is
  · rename_i some_
    obtain ⟨rfl, rfl⟩ := List.cons.inj is
    refine ⟨scanToken_token width s, ?_⟩
    rw [scanToken_rest]
    split
    · rename_i long
      refine words_append (fun b mem => firstWord_clean _ b (List.mem_of_mem_drop mem)) ?_
        (behindWord_head _)
      exact List.ne_nil_of_length_pos (by rw [List.length_drop]; omega)
    · rename_i short
      rw [List.drop_of_length_le (by omega), List.nil_append]

theorem scanToken_empty_iff {width : Nat} (wide : 0 < width) (s : CStr) :
    (scanToken width s).1.str = .empty ↔ words isspace s.bytes = [] := by
  cases line : words isspace s.bytes with
  | nil =>
      refine iff_of_true (CStr.ext ?_) rfl
      rw [words_eq] at line
      split at line
      · rename_i none_
        rw [scanToken_token, firstWord, none_]
        simp
      · cases line
  | cons word rest =>
      refine iff_of_false (fun empty => ?_) (by simp)
      have none_ : word.take width = [] := by
        rw [← (scanToken_of_words line).1, empty]
        rfl
      have inside : word ∈ words isspace s.bytes := by
        rw [line]
        exact List.mem_cons_self
      have some_ := ne_nil_of_mem_words inside
      rcases List.take_eq_nil_iff.mp none_ with zero | nil
      · omega
      · exact some_ nil

/-- **The scan, by the words of the line.** -/
theorem scanRequestLine_eq (s : CStr) :
    (scanRequestLine s).map (fun pair => (pair.1.str.bytes, pair.2.str.bytes)) =
      scanned (words isspace s.bytes) := by
  unfold scanRequestLine
  simp only [scanToken_empty_iff (show 0 < 7 by decide), scanToken_empty_iff (show 0 < 255 by decide)]
  cases line : words isspace s.bytes with
  | nil => rfl
  | cons method rest =>
      obtain ⟨token, later⟩ := scanToken_of_words line
      rw [later, scanned]
      split
      · rename_i long
        obtain ⟨path, -⟩ := scanToken_of_words (later.trans (if_pos long))
        rw [if_neg (by simp), Option.map_some, token, path]
      · rename_i short
        rw [if_neg short] at later
        cases rest with
        | nil => simp
        | cons second rest =>
            obtain ⟨path, -⟩ := scanToken_of_words later
            rw [if_neg (by simp), Option.map_some, token, path, List.take_of_length_le (by omega)]
            rfl

/-! ## The first line -/

/-- The bytes before the first LF. -/
def firstLine (buf : List UInt8) : List UInt8 := buf.takeWhile (· != 10)

theorem findHeaderEnd_prefix {buf : List UInt8} {i : Nat} (found : findHeaderEnd buf = some i) :
    crlfcrlf <+: buf.drop i := by
  induction buf generalizing i with
  | nil => cases found
  | cons b rest ih =>
      rcases findHeaderEnd_cons found with ⟨here, rfl⟩ | ⟨-, j, later, rfl⟩
      · exact here
      · exact ih later

theorem takeWhile_append_lf (front back : List UInt8) :
    (front ++ 10 :: back).takeWhile (· != 10) = front.takeWhile (· != 10) := by
  rw [List.takeWhile_append]
  split
  · rename_i all
    rw [List.IsPrefix.eq_of_length (List.takeWhile_prefix _) all]
    simp
  · rfl

theorem headerLines_cons (b : UInt8) (rest : List UInt8) :
    ∃ fields, headerLines (b :: rest) =
      ((b :: rest) ++ [13]).takeWhile (· != 10) :: fields := by
  induction rest generalizing b with
  | nil =>
      rw [headerLines]
      by_cases lf : b = 10
      · exact ⟨[], by simp [lf, headerLines]⟩
      · exact ⟨[], by simp [lf, headerLines]⟩
  | cons c rest ih =>
      obtain ⟨fields, lines⟩ := ih c
      rw [headerLines]
      by_cases lf : b = 10
      · rw [if_pos lf]
        exact ⟨_, by simp [lf]; rfl⟩
      · rw [if_neg lf, lines]
        exact ⟨fields, by simp [lf]⟩

/-- The loop of the parser begins with the first line, unless the block is empty. -/
theorem headerLines_take {buf : List UInt8} {i : Nat} (found : findHeaderEnd buf = some i)
    (some_ : i ≠ 0) : ∃ fields, headerLines (buf.take i) = firstLine buf :: fields := by
  obtain ⟨back, tail⟩ := findHeaderEnd_prefix found
  have inside := findHeaderEnd_le found
  have line : firstLine buf = (buf.take i ++ [13]).takeWhile (· != 10) := by
    have parts : buf = (buf.take i ++ [13]) ++ 10 :: ([13, 10] ++ back) := by
      conv_lhs => rw [← List.take_append_drop i buf, ← tail]
      simp [crlfcrlf]
    rw [firstLine]
    conv_lhs => rw [parts]
    exact takeWhile_append_lf _ _
  rw [line]
  cases front : buf.take i with
  | nil =>
      have size := congrArg List.length front
      rw [List.length_take, List.length_nil] at size
      omega
  | cons b rest => exact headerLines_cons b rest

/-! ## The parser -/

theorem foldl_requestLine (fields : List CStr) (scan : HeaderScan) :
    (fields.foldl headerLine scan).req.method = scan.req.method ∧
      (fields.foldl headerLine scan).req.path = scan.req.path := by
  induction fields generalizing scan with
  | nil => exact ⟨rfl, rfl⟩
  | cons line fields ih =>
      have one : (headerLine scan line).req.method = scan.req.method ∧
          (headerLine scan line).req.path = scan.req.path := by
        unfold headerLine headerField
        split
        · split_ifs <;> exact ⟨rfl, rfl⟩
        · exact ⟨rfl, rfl⟩
      rw [List.foldl_cons, (ih _).1, (ih _).2]
      exact one

/-- The words of the part of the line that is copied. -/
def shownWords (line : List UInt8) : List (List UInt8) := words isspace (shown line)

theorem isspace_of_isStripped (b : UInt8) (stripped : isStripped b = true) : isspace b = true := by
  simp only [isStripped, Bool.or_eq_true, decide_eq_true_eq] at stripped
  rcases stripped with ((rfl | rfl) | rfl) | rfl <;> decide

theorem words_copyLine (line : List UInt8) : words isspace (copyLine line).bytes = shownWords line :=
  words_rdropWhile isspace_of_isStripped (shown line)

theorem requestOfLines_cons (first : List UInt8) (fields : List (List UInt8)) :
    (requestOfLines (first :: fields)).map (fun req => (req.method.str.bytes, req.path.str.bytes)) =
      scanned (shownWords first) := by
  rw [← words_copyLine, ← scanRequestLine_eq, requestOfLines, Option.map_map]
  congr 1
  funext pair
  have same := foldl_requestLine (fields.map copyLine)
    ⟨{ HttpRequest.zeroed with method := pair.1, path := pair.2 }, false, false⟩
  simp only [Function.comp_apply]
  rw [same.1, same.2]

/-- A block that is not empty is rejected, or gives the method and the path that were scanned. -/
theorem httpParseRequest_scanned {buf : List UInt8} {i : Nat} (found : findHeaderEnd buf = some i)
    (some_ : i ≠ 0) :
    (httpParseRequest buf = .malformed ∧ scanned (shownWords (firstLine buf)) = none) ∨
      ∃ req, httpParseRequest buf = .done (i + 4, req) ∧
        scanned (shownWords (firstLine buf)) = some (req.method.str.bytes, req.path.str.bytes) := by
  obtain ⟨fields, lines⟩ := headerLines_take found some_
  have scan := requestOfLines_cons (firstLine buf) fields
  unfold httpParseRequest
  simp only [found, lines]
  cases made : requestOfLines (firstLine buf :: fields) with
  | none =>
      rw [made] at scan
      exact Or.inl ⟨rfl, scan.symm⟩
  | some req =>
      rw [made] at scan
      exact Or.inr ⟨req, rfl, scan.symm⟩

/-! ## Strictness -/

/-- What is accepted has the complete first two words of its first line; what has no two that
fit is rejected. -/
structure Strict (buf : List UInt8) : Prop where
  complete : ∀ n req, httpParseRequest buf = .done (n, req) →
    ∃ rest, words isspace (firstLine buf) = req.method.str.bytes :: req.path.str.bytes :: rest
  rejected : ∀ i, findHeaderEnd buf = some i →
    (¬ ∃ method path rest, words isspace (firstLine buf) = method :: path :: rest ∧
      method.length ≤ 7 ∧ path.length ≤ 255) → httpParseRequest buf = .malformed

/-- The first word that is copied has at most seven bytes; a second has at most 255, and does not
go on behind the copy. -/
def FitsCopy (line : List UInt8) : Prop :=
  match shownWords line with
  | [] => True
  | [method] => method.length ≤ 7
  | method :: path :: _ =>
      method.length ≤ 7 ∧ path.length ≤ 255 ∧ (words isspace line)[1]? = some path

/-- The block, once it is complete, is not empty, and its first line fits. -/
def RequestLineFits (buf : List UInt8) : Prop :=
  ∀ i, findHeaderEnd buf = some i → i ≠ 0 ∧ FitsCopy (firstLine buf)

/-- A first word that is too long is not what is taken for it. -/
theorem no_long_method {line method : List UInt8} {first : List UInt8} {others : List (List UInt8)}
    (is : shownWords line = first :: others) (long : 7 < first.length)
    (cut : method = first.take 7) (rest : List (List UInt8)) :
    words isspace line ≠ method :: rest := by
  intro whole
  obtain ⟨first', rest', longer, grows⟩ := words_head_append is (hidden line)
  rw [shown_append_hidden, whole] at longer
  obtain ⟨rfl, -⟩ := List.cons.inj longer
  have size := grows.length_le
  rw [cut, List.length_take] at size
  omega

theorem scanned_eq_some {line method path : List UInt8}
    (scan : scanned (shownWords line) = some (method, path)) :
    FitsCopy line ↔ ∃ rest, words isspace line = method :: path :: rest := by
  rw [FitsCopy]
  cases is : shownWords line with
  | nil =>
      rw [is] at scan
      cases scan
  | cons first others =>
      rw [is, scanned] at scan
      split at scan
      · rename_i long
        -- the rest of the first word was taken for the path
        have cut := (Prod.mk.inj (Option.some.inj scan)).1.symm
        have other : ¬ ∃ rest, words isspace line = method :: path :: rest :=
          fun ⟨rest, whole⟩ => no_long_method is long cut _ whole
        cases others with
        | nil => exact iff_of_false (by simpa using long) other
        | cons second more => exact iff_of_false (fun fits => by omega) other
      · rename_i short
        cases others with
        | nil => cases scan
        | cons second more =>
            obtain ⟨rfl, rfl⟩ := Prod.mk.inj (Option.some.inj scan)
            obtain ⟨second', rest', whole, grows⟩ := words_second_append is (hidden line)
            rw [shown_append_hidden] at whole
            simp only [whole, List.getElem?_cons_succ, List.getElem?_cons_zero, Option.some.injEq,
              List.cons.injEq, true_and]
            constructor
            · rintro ⟨-, fits, rfl⟩
              exact ⟨rest', (List.take_of_length_le fits).symm, rfl⟩
            · rintro ⟨rest, same, -⟩
              have size := grows.length_le
              rw [same, List.length_take] at size
              have fits : second.length ≤ 255 := by omega
              exact ⟨by omega, fits, same.trans (List.take_of_length_le fits)⟩

theorem fitsCopy_of_none {line : List UInt8} (scan : scanned (shownWords line) = none) :
    FitsCopy line := by
  rw [FitsCopy]
  cases is : shownWords line with
  | nil => trivial
  | cons first others =>
      rw [is, scanned] at scan
      split at scan
      · cases scan
      · rename_i short
        cases others with
        | nil => exact Nat.le_of_not_lt short
        | cons second more => cases scan

/-- **Strictness holds exactly where the request line fits.** -/
theorem strict_iff (buf : List UInt8) : Strict buf ↔ RequestLineFits buf := by
  constructor
  · intro strict i found
    by_cases empty : i = 0
    · -- without a line nothing is scanned
      subst empty
      have parsed : httpParseRequest buf = .done (4, .zeroed) := by
        simp [httpParseRequest, found, headerLines, requestOfLines]
      obtain ⟨rest, whole⟩ := strict.complete _ _ parsed
      exact absurd rfl (ne_nil_of_mem_words (by rw [whole]; exact List.mem_cons_self))
    · refine ⟨empty, ?_⟩
      rcases httpParseRequest_scanned found empty with ⟨-, scan⟩ | ⟨req, parsed, scan⟩
      · exact fitsCopy_of_none scan
      · exact (scanned_eq_some scan).mpr (strict.complete _ _ parsed)
  · intro fits
    constructor
    · intro n req parsed
      obtain ⟨i, found, -, -⟩ := httpParseRequest_eq_done.mp parsed
      obtain ⟨some_, line⟩ := fits i found
      rcases httpParseRequest_scanned found some_ with ⟨turned, -⟩ | ⟨req', parsed', scan⟩
      · rw [turned] at parsed
        cases parsed
      · rw [parsed'] at parsed
        cases parsed
        exact (scanned_eq_some scan).mp line
    · intro i found no_
      obtain ⟨some_, line⟩ := fits i found
      rcases httpParseRequest_scanned found some_ with ⟨turned, -⟩ | ⟨req, -, scan⟩
      · exact turned
      · obtain ⟨rest, whole⟩ := (scanned_eq_some scan).mp line
        exact absurd ⟨_, _, rest, whole, req.method.fits, req.path.fits⟩ no_

/-- The rest of a long method, taken for the path. -/
def glued : List UInt8 := ascii "OPTIONS/spnav/sensitivity HTTP/1.1\r\n\r\n"

theorem glued_accepted : ¬ Strict glued := by
  intro strict
  have parsed : httpParseRequest glued = .done (38, { HttpRequest.zeroed with
      method := .printf 7 (.lit "OPTIONS")
      path := .printf 255 (.lit "/spnav/sensitivity") }) := by
    decide +kernel
  have sent : words isspace (firstLine glued) =
      [ascii "OPTIONS/spnav/sensitivity", ascii "HTTP/1.1"] := by
    decide +kernel
  obtain ⟨rest, whole⟩ := strict.complete _ _ parsed
  rw [sent] at whole
  exact absurd (List.cons.inj whole).1 (by decide)

end SpnavBridge.Wire
