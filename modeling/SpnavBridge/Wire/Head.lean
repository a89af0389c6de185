/-
# Wire.Head -- the parser on the request heads that a well-behaved client sends

`RequestHead` is the sender's side: a method and a path that fit, and header fields whose
names and values have none of the bytes that structure a head.  A head that the parser would
have to cut, or would read as more lines than were meant, cannot be built.  `text` is what is
sent, and `request` what it says, by the rules of the header fields: the last value of a
repeated field counts, names compare without case, and blanks around a value do not belong
to it.

`httpParseRequest_text`: the parser gives exactly that, whatever follows the head, and waits
as long as the head is not complete.
-/
import SpnavBridge.Wire.RequestLine

namespace SpnavBridge.Wire

open SpnavBridge.Theory

set_option autoImplicit false

/-! ## What is sent -/

/-- A header field that reaches the parser whole. -/
structure HeaderField where
  name : List UInt8
  value : List UInt8
  nameClean : ∀ b ∈ name, b ≠ 58 ∧ 32 < b
  valueClean : ∀ b ∈ value, b ≠ 0 ∧ b ≠ 10 ∧ b ≠ 13
  fits : name.length + value.length + 3 ≤ lineMax

namespace HeaderField

def line (f : HeaderField) : List UInt8 := f.name ++ 58 :: 32 :: f.value

def nameStr (f : HeaderField) : CStr :=
  ⟨f.name, fun zero => absurd (f.nameClean 0 zero).2 (by decide)⟩

/-- The value without the blanks around it. -/
def trimmed (f : HeaderField) : CStr where
  bytes := (f.value.rdropWhile isBlank).dropWhile isBlank
  noNul := fun zero => (f.valueClean 0 ((List.rdropWhile_prefix _ _).subset
    ((List.dropWhile_sublist _).subset zero))).1 rfl

end HeaderField

structure RequestHead where
  method : List UInt8
  path : List UInt8
  fields : List HeaderField
  methodSome : method ≠ []
  methodFits : method.length ≤ 7
  methodClean : ∀ b ∈ method, b ≠ 0 ∧ isspace b = false
  pathSome : path ≠ []
  pathFits : path.length ≤ 255
  pathClean : ∀ b ∈ path, b ≠ 0 ∧ isspace b = false

/-- The last value of a header field. -/
def lastValue (key : CStr) (fields : List HeaderField) : Option CStr :=
  ((fields.filter fun f => strcasecmp f.nameStr key).getLast?).map HeaderField.trimmed

/-- Some value of a header field passes the test. -/
def anyValue (key : CStr) (test : CStr → Bool) (fields : List HeaderField) : Bool :=
  fields.any fun f => strcasecmp f.nameStr key && test f.trimmed

namespace RequestHead

def requestLine (h : RequestHead) : List UInt8 := h.method ++ 32 :: (h.path ++ ascii " HTTP/1.1")

def lines (h : RequestHead) : List (List UInt8) := h.requestLine :: h.fields.map HeaderField.line

/-- The lines, each ended by CRLF, and the empty line. -/
def text (h : RequestHead) : List UInt8 := h.lines.flatMap (· ++ [13, 10]) ++ [13, 10]

/-- What the head says. -/
def request (h : RequestHead) : HttpRequest where
  method := ⟨⟨h.method, fun zero => (h.methodClean 0 zero).1 rfl⟩, h.methodFits⟩
  path := ⟨⟨h.path, fun zero => (h.pathClean 0 zero).1 rfl⟩, h.pathFits⟩
  origin := .printf 255 ((lastValue (.lit "Origin") h.fields).getD .empty)
  wsKey := .printf 255 ((lastValue (.lit "Sec-WebSocket-Key") h.fields).getD .empty)
  isWsUpgrade :=
    anyValue (.lit "Upgrade") (fun value => strcasecmp value (.lit "websocket")) h.fields &&
      anyValue (.lit "Connection") (fun value => strcasestr value (.lit "upgrade")) h.fields
  contentLength := ((lastValue (.lit "Content-Length") h.fields).map fun value =>
    (strtol value).toNat).getD 0

end RequestHead

/-! ## Lines -/

/-- Lines that are not empty and have no CR and no LF. -/
def PlainLine (line : List UInt8) : Prop := line ≠ [] ∧ ∀ b ∈ line, b ≠ 10 ∧ b ≠ 13

/-- The lines of a block, with CRLF between them. -/
abbrev block (lines : List (List UInt8)) : List UInt8 := List.intercalate [13, 10] lines

theorem flatMap_crlf (line : List UInt8) (lines : List (List UInt8)) :
    (line :: lines).flatMap (· ++ [13, 10]) ++ [13, 10] = block (line :: lines) ++ crlfcrlf := by
  induction lines generalizing line with
  | nil => simp [block, crlfcrlf]
  | cons next lines ih =>
      rw [List.flatMap_cons, List.append_assoc, ih]
      simp [block, List.intercalate_cons_cons]

theorem findHeaderEnd_skip {front : List UInt8} (clean : ∀ b ∈ front, b ≠ 13) (back : List UInt8) :
    findHeaderEnd (front ++ back) = (findHeaderEnd back).map (front.length + ·) := by
  induction front with
  | nil => simp
  | cons b front ih =>
      have away : ¬ crlfcrlf <+: b :: (front ++ back) := by
        intro here
        exact clean b List.mem_cons_self (List.cons_prefix_cons.mp here).1.symm
      rw [List.cons_append, findHeaderEnd, if_neg away,
        ih fun b mem => clean b (List.mem_cons_of_mem _ mem), Option.map_map]
      congr 1
      funext i
      simp only [Function.comp_apply, List.length_cons]
      omega

/-- A CRLF that ends a line, but not the head. -/
theorem findHeaderEnd_crlf {b : UInt8} (plain : b ≠ 13) (back : List UInt8) :
    findHeaderEnd (13 :: 10 :: b :: back) = (findHeaderEnd (b :: back)).map (2 + ·) := by
  have away : ¬ crlfcrlf <+: 13 :: 10 :: b :: back := by
    simp [crlfcrlf, List.cons_prefix_cons, Ne.symm plain]
  have clean : ∀ b ∈ ([10] : List UInt8), b ≠ 13 := by simp
  have lf := findHeaderEnd_skip clean (b :: back)
  rw [List.singleton_append] at lf
  rw [findHeaderEnd, if_neg away, lf, Option.map_map]
  congr 1
  funext i
  simp only [Function.comp_apply, List.length_singleton]
  omega

theorem findHeaderEnd_block {lines : List (List UInt8)} (some_ : lines ≠ [])
    (plain : ∀ line ∈ lines, PlainLine line) (trailing : List UInt8) :
    findHeaderEnd (block lines ++ (crlfcrlf ++ trailing)) = some (block lines).length := by
  induction lines with
  | nil => exact absurd rfl some_
  | cons line lines ih =>
      have clean : ∀ b ∈ line, b ≠ 13 := fun b mem => ((plain line List.mem_cons_self).2 b mem).2
      cases lines with
      | nil =>
          have here : findHeaderEnd (crlfcrlf ++ trailing) = some 0 :=
            if_pos (List.prefix_append crlfcrlf trailing)
          simp [block, findHeaderEnd_skip clean, here]
      | cons next lines =>
          have rest := ih (by simp) fun line mem => plain line (List.mem_cons_of_mem _ mem)
          obtain ⟨start, inside⟩ := plain next (by simp)
          obtain ⟨b, next, rfl⟩ := List.exists_cons_of_ne_nil start
          have shape : block (line :: (b :: next) :: lines) ++ (crlfcrlf ++ trailing) =
              line ++ 13 :: 10 :: (block ((b :: next) :: lines) ++ (crlfcrlf ++ trailing)) := by
            simp [block, List.intercalate_cons_cons]
          have first : block ((b :: next) :: lines) = b :: block (next :: lines) := by
            cases lines <;> simp [block, List.intercalate_cons_cons]
          have size : (block (line :: (b :: next) :: lines)).length =
              line.length + (2 + (block ((b :: next) :: lines)).length) := by
            simp [block, List.intercalate_cons_cons]
            omega
          rw [shape, findHeaderEnd_skip clean, size]
          rw [first, List.cons_append] at rest ⊢
          rw [findHeaderEnd_crlf (inside b List.mem_cons_self).2, rest]
          rfl

theorem headerLines_lf {front : List UInt8} (clean : ∀ b ∈ front, b ≠ 10) (back : List UInt8) :
    headerLines (front ++ 10 :: back) = front :: headerLines back := by
  induction front with
  | nil => simp [headerLines]
  | cons b front ih =>
      rw [List.cons_append, headerLines, if_neg (clean b List.mem_cons_self),
        ih fun b mem => clean b (List.mem_cons_of_mem _ mem)]

theorem headerLines_last {line : List UInt8} (some_ : line ≠ []) (clean : ∀ b ∈ line, b ≠ 10) :
    headerLines line = [line ++ [13]] := by
  induction line with
  | nil => exact absurd rfl some_
  | cons b line ih =>
      rw [headerLines, if_neg (clean b List.mem_cons_self)]
      cases line with
      | nil => rfl
      | cons c line =>
          rw [ih (by simp) fun b mem => clean b (List.mem_cons_of_mem _ mem)]
          rfl

theorem headerLines_block {lines : List (List UInt8)} (some_ : lines ≠ [])
    (plain : ∀ line ∈ lines, PlainLine line) :
    headerLines (block lines) = lines.map (· ++ [13]) := by
  induction lines with
  | nil => exact absurd rfl some_
  | cons line lines ih =>
      obtain ⟨start, clean⟩ := plain line List.mem_cons_self
      cases lines with
      | nil =>
          have last := headerLines_last start fun b mem => (clean b mem).1
          simpa [block] using last
      | cons next lines =>
          have rest := ih (by simp) fun line mem => plain line (List.mem_cons_of_mem _ mem)
          have shape :
              block (line :: next :: lines) = (line ++ [13]) ++ 10 :: block (next :: lines) := by
            simp [block, List.intercalate_cons_cons]
          have front : ∀ b ∈ line ++ [13], b ≠ 10 := by
            intro b mem
            rcases List.mem_append.mp mem with inside | cr
            · exact (clean b inside).1
            · rw [List.mem_singleton.mp cr]
              decide
          rw [shape, headerLines_lf front, rest]
          rfl

/-- The copy of a line that fits is the line, without blanks at its end. -/
theorem copyLine_bytes {line : List UInt8} (clean : 0 ∉ line) (fits : line.length + 1 ≤ lineMax) :
    (copyLine (line ++ [13])).bytes = line.rdropWhile isStripped := by
  have whole : (CStr.ofBytes ((line ++ [13]).take lineMax)).bytes = line ++ [13] := by
    rw [List.take_of_length_le (by simpa using fits)]
    refine List.takeWhile_eq_self_iff.mpr fun b mem => bne_iff_ne.mpr ?_
    rintro rfl
    simp [clean] at mem
  rw [copyLine, rstrip]
  simp only [whole]
  exact List.rdropWhile_concat_pos _ _ _ (by decide)

/-! ## Fields -/

theorem rdropWhile_congr {p q : UInt8 → Bool} {l : List UInt8} (same : ∀ b ∈ l, p b = q b) :
    l.rdropWhile p = l.rdropWhile q := by
  induction l using List.reverseRecOn with
  | nil => rfl
  | append_singleton l b ih =>
      have last := same b (by simp)
      rw [List.rdropWhile_concat, List.rdropWhile_concat, last,
        ih fun b mem => same b (List.mem_append_left _ mem)]

/-- A blank in front is dropped before or after those at the end. -/
theorem dropWhile_rdropWhile_cons {p q : UInt8 → Bool} {b : UInt8} (front : p b = true)
    (back : q b = true) (l : List UInt8) :
    ((b :: l).rdropWhile q).dropWhile p = (l.rdropWhile q).dropWhile p := by
  rw [List.rdropWhile, List.rdropWhile, List.reverse_cons, List.dropWhile_append]
  split
  · rename_i none_
    simp [List.isEmpty_iff.mp none_, back]
  · rw [List.reverse_append, List.reverse_singleton, List.singleton_append,
      List.dropWhile_cons_of_pos front]

theorem HeaderField.plainLine (f : HeaderField) : PlainLine f.line := by
  refine ⟨by simp [line], fun b mem => ?_⟩
  simp only [line, List.mem_append, List.mem_cons] at mem
  rcases mem with name | rfl | rfl | value
  · have high := (f.nameClean b name).2
    constructor <;> rintro rfl <;> exact absurd high (by decide)
  · decide
  · decide
  · exact (f.valueClean b value).2

/-- The parser reads a field as it is meant. -/
theorem headerLine_line (scan : HeaderScan) (f : HeaderField) :
    headerLine scan (copyLine (f.line ++ [13])) = headerField scan f.nameStr f.trimmed := by
  have noNul : 0 ∉ f.line := by
    simp only [HeaderField.line, List.mem_append, List.mem_cons, not_or]
    exact ⟨f.nameStr.noNul, by decide, by decide, fun zero => (f.valueClean 0 zero).1 rfl⟩
  have fits : f.line.length + 1 ≤ lineMax := by
    have room := f.fits
    simp only [HeaderField.line, List.length_append, List.length_cons]
    omega
  have stripped : (copyLine (f.line ++ [13])).bytes =
      f.name ++ 58 :: (32 :: f.value).rdropWhile isStripped := by
    rw [copyLine_bytes noNul fits, HeaderField.line, rdropWhile_append_cons (by decide)]
  have restNul : 0 ∉ (32 :: f.value).rdropWhile isStripped := by
    have whole := (copyLine (f.line ++ [13])).noNul
    rw [stripped] at whole
    exact fun zero => whole (by simp [zero])
  have parts : (copyLine (f.line ++ [13])).cut 58 =
      some (f.nameStr, ⟨(32 :: f.value).rdropWhile isStripped, restNul⟩) :=
    CStr.cut_eq_some.mpr ⟨stripped, fun colon => (f.nameClean 58 colon).1 rfl⟩
  have blanks : ∀ b ∈ f.value, isStripped b = isBlank b := by
    intro b mem
    have plain := (f.valueClean b mem).2
    simp [isStripped, isBlank, plain]
  have value : skipWs ⟨(32 :: f.value).rdropWhile isStripped, restNul⟩ = f.trimmed := by
    apply CStr.ext
    show ((32 :: f.value).rdropWhile isStripped).dropWhile isBlank = _
    rw [dropWhile_rdropWhile_cons (by decide) (by decide), rdropWhile_congr blanks]
    rfl
  rw [headerLine, parts]
  simp only [value]

/-! ## All fields -/

/-- Two spellings of one name are no spellings of another. -/
theorem strcasecmp_other {name key other : CStr} (same : strcasecmp name key = true)
    (differ : strcasecmp key other = false) : strcasecmp name other = false := by
  simp only [strcasecmp, beq_iff_eq] at same differ ⊢
  rw [same, differ]

/-- One field, each entry of the scan by itself. -/
theorem headerField_eq (scan : HeaderScan) (name value : CStr) :
    headerField scan name value =
      { req := { scan.req with
          origin := if strcasecmp name (.lit "Origin") then .printf 255 value else scan.req.origin
          wsKey := if strcasecmp name (.lit "Sec-WebSocket-Key") then .printf 255 value
            else scan.req.wsKey
          contentLength := if strcasecmp name (.lit "Content-Length") then (strtol value).toNat
            else scan.req.contentLength }
        upgradeHdr := scan.upgradeHdr ||
          (strcasecmp name (.lit "Upgrade") && strcasecmp value (.lit "websocket"))
        connectionUpgrade := scan.connectionUpgrade ||
          (strcasecmp name (.lit "Connection") && strcasestr value (.lit "upgrade")) } := by
  -- at most one of the five names is this one
  have only : ∀ {key other : CStr}, strcasecmp name key = true → strcasecmp key other = false →
      strcasecmp name other = false := strcasecmp_other
  unfold headerField
  by_cases origin : strcasecmp name (.lit "Origin") = true
  · simp [origin, only origin (show strcasecmp _ (.lit "Sec-WebSocket-Key") = _ by decide),
      only origin (show strcasecmp _ (.lit "Upgrade") = _ by decide),
      only origin (show strcasecmp _ (.lit "Connection") = _ by decide),
      only origin (show strcasecmp _ (.lit "Content-Length") = _ by decide)]
  by_cases key : strcasecmp name (.lit "Sec-WebSocket-Key") = true
  · simp [origin, key, only key (show strcasecmp _ (.lit "Upgrade") = _ by decide),
      only key (show strcasecmp _ (.lit "Connection") = _ by decide),
      only key (show strcasecmp _ (.lit "Content-Length") = _ by decide)]
  by_cases upgrade : strcasecmp name (.lit "Upgrade") = true
  · have connection := only upgrade (show strcasecmp _ (.lit "Connection") = _ by decide)
    have length := only upgrade (show strcasecmp _ (.lit "Content-Length") = _ by decide)
    by_cases websocket : strcasecmp value (.lit "websocket") = true <;>
      simp [origin, key, upgrade, connection, length, websocket]
  by_cases connection : strcasecmp name (.lit "Connection") = true
  · have length := only connection (show strcasecmp _ (.lit "Content-Length") = _ by decide)
    by_cases listed : strcasestr value (.lit "upgrade") = true <;>
      simp [origin, key, upgrade, connection, length, listed]
  by_cases length : strcasecmp name (.lit "Content-Length") = true <;>
    simp [origin, key, upgrade, connection, length]

theorem lastValue_snoc (key : CStr) (fields : List HeaderField) (f : HeaderField) :
    lastValue key (fields ++ [f]) =
      if strcasecmp f.nameStr key then some f.trimmed else lastValue key fields := by
  rw [lastValue, List.filter_append]
  by_cases named : strcasecmp f.nameStr key = true
  · simp [named]
  · simp [named, lastValue]

/-- **The fields of a head**, whatever was scanned before them. -/
theorem foldl_headerField (fields : List HeaderField) (scan : HeaderScan) :
    fields.foldl (fun scan f => headerField scan f.nameStr f.trimmed) scan =
      { req := { scan.req with
          origin := ((lastValue (.lit "Origin") fields).map (.printf 255)).getD scan.req.origin
          wsKey := ((lastValue (.lit "Sec-WebSocket-Key") fields).map (.printf 255)).getD
            scan.req.wsKey
          contentLength := ((lastValue (.lit "Content-Length") fields).map fun value =>
            (strtol value).toNat).getD scan.req.contentLength }
        upgradeHdr := scan.upgradeHdr ||
          anyValue (.lit "Upgrade") (fun value => strcasecmp value (.lit "websocket")) fields
        connectionUpgrade := scan.connectionUpgrade ||
          anyValue (.lit "Connection") (fun value => strcasestr value (.lit "upgrade")) fields } := by
  induction fields using List.reverseRecOn with
  | nil => simp [lastValue, anyValue]
  | append_singleton fields f ih =>
      rw [List.foldl_append, ih, List.foldl_cons, List.foldl_nil, headerField_eq]
      simp only [lastValue_snoc, anyValue, List.any_append, List.any_cons, List.any_nil,
        Bool.or_false, Bool.or_assoc, HeaderScan.mk.injEq, HttpRequest.mk.injEq, true_and, and_true]
      refine ⟨?_, ?_, ?_⟩ <;> split <;> rfl

/-! ## The head -/

namespace RequestHead

variable (h : RequestHead)

theorem requestLine_plain : PlainLine h.requestLine := by
  refine ⟨by simp [requestLine], fun b mem => ?_⟩
  have word : ∀ b : UInt8, isspace b = false → b ≠ 10 ∧ b ≠ 13 := by
    intro b clean
    constructor <;> rintro rfl <;> exact absurd clean (by decide)
  have version : ∀ b ∈ ascii " HTTP/1.1", b ≠ 10 ∧ b ≠ 13 := by decide +kernel
  simp only [requestLine, List.mem_append, List.mem_cons] at mem
  rcases mem with method | rfl | path | last
  · exact word b (h.methodClean b method).2
  · decide
  · exact word b (h.pathClean b path).2
  · exact version b last

theorem words_requestLine : words isspace h.requestLine = [h.method, h.path, ascii "HTTP/1.1"] := by
  have version : words isspace (ascii " HTTP/1.1") = [ascii "HTTP/1.1"] := by decide
  have blank : ∀ b ∈ (ascii " HTTP/1.1").head?, isspace b = true := by decide +kernel
  rw [requestLine, words_append_sep (by decide),
    words_of_word (fun b mem => (h.methodClean b mem).2) h.methodSome,
    words_append (fun b mem => (h.pathClean b mem).2) h.pathSome blank, version]
  rfl

theorem scanRequestLine_requestLine :
    scanRequestLine (copyLine (h.requestLine ++ [13])) =
      some (h.request.method, h.request.path) := by
  have noNul : 0 ∉ h.requestLine := by
    have version : (0 : UInt8) ∉ ascii " HTTP/1.1" := by decide
    simp only [requestLine, List.mem_append, List.mem_cons, not_or]
    exact ⟨fun zero => (h.methodClean 0 zero).1 rfl, by decide,
      fun zero => (h.pathClean 0 zero).1 rfl, version⟩
  have fits : h.requestLine.length + 1 ≤ lineMax := by
    have version : (ascii " HTTP/1.1").length = 9 := by decide
    have method := h.methodFits
    have path := h.pathFits
    simp only [requestLine, List.length_append, List.length_cons, version, lineMax]
    omega
  have scan := scanRequestLine_eq (copyLine (h.requestLine ++ [13]))
  rw [copyLine_bytes noNul fits, words_rdropWhile isspace_of_isStripped, words_requestLine, scanned,
    if_neg (Nat.not_lt.mpr h.methodFits)] at scan
  obtain ⟨⟨method, path⟩, found, parts⟩ := Option.map_eq_some_iff.mp scan
  obtain ⟨method_, path_⟩ := Prod.mk.inj parts
  rw [found]
  congr 1
  refine Prod.ext (CBuf.ext_bytes method_) (CBuf.ext_bytes ?_)
  rw [path_, List.take_of_length_le h.pathFits]
  rfl

theorem requestOfLines_lines : requestOfLines (h.lines.map (· ++ [13])) = some h.request := by
  have fields : ((h.fields.map HeaderField.line).map (· ++ [13])).map copyLine =
      h.fields.map fun f => copyLine (f.line ++ [13]) := by
    simp [Function.comp_def]
  rw [lines, List.map_cons, requestOfLines, scanRequestLine_requestLine, Option.map_some, fields]
  simp only [List.foldl_map, headerLine_line, foldl_headerField]
  have cut : ∀ value : Option CStr, (value.map (CBuf.printf 255)).getD (.zeroed 255) =
      .printf 255 (value.getD .empty) := by
    intro value
    cases value <;> rfl
  simp only [HttpRequest.zeroed, cut, Bool.false_or]
  rfl

theorem lines_plain : ∀ line ∈ h.lines, PlainLine line := by
  intro line mem
  rcases List.mem_cons.mp mem with rfl | field
  · exact h.requestLine_plain
  · obtain ⟨f, -, rfl⟩ := List.mem_map.mp field
    exact f.plainLine

theorem text_eq : h.text = block h.lines ++ crlfcrlf := flatMap_crlf _ _

end RequestHead

/-- **A head is read as it is meant**, whatever follows it; until it is complete, the parser waits. -/
theorem httpParseRequest_text (h : RequestHead) (trailing : List UInt8) :
    httpParseRequest (h.text ++ trailing) = .done (h.text.length, h.request) ∧
      ∀ n < h.text.length, httpParseRequest ((h.text ++ trailing).take n) = .incomplete := by
  have found : findHeaderEnd (h.text ++ trailing) = some (block h.lines).length := by
    rw [h.text_eq, List.append_assoc]
    exact findHeaderEnd_block (by simp [RequestHead.lines]) h.lines_plain trailing
  have size : h.text.length = (block h.lines).length + 4 := by
    rw [h.text_eq, List.length_append]
    rfl
  constructor
  · rw [httpParseRequest_eq_done]
    refine ⟨_, found, ?_, size⟩
    rw [h.text_eq, List.append_assoc, List.take_left,
      headerLines_block (by simp [RequestHead.lines]) h.lines_plain, h.requestOfLines_lines]
  · intro n short
    have none_ : findHeaderEnd ((h.text ++ trailing).take n) = none := by
      cases early : findHeaderEnd ((h.text ++ trailing).take n) with
      | none => rfl
      | some i =>
          -- an end that is found stays where it is when more arrives
          have same := findHeaderEnd_append early ((h.text ++ trailing).drop n)
          rw [List.take_append_drop, found] at same
          have inside := findHeaderEnd_le early
          rw [← Option.some.inj same, List.length_take] at inside
          omega
    simp only [httpParseRequest, none_]

/-- A head with a field that is given twice. -/
def upgradeHead : RequestHead where
  method := ascii "GET"
  path := ascii "/"
  fields :=
    [⟨ascii "UPGRADE", ascii "WebSocket", by decide +kernel, by decide +kernel, by decide⟩,
      ⟨ascii "Origin", ascii "http://localhost", by decide +kernel, by decide +kernel, by decide⟩,
      ⟨ascii "connection", ascii "keep-alive, Upgrade", by decide +kernel, by decide +kernel, by decide⟩,
      ⟨ascii "Origin", ascii " https://cad.onshape.com\t", by decide +kernel, by decide +kernel, by decide⟩]
  methodSome := by decide
  methodFits := by decide
  methodClean := by decide +kernel
  pathSome := by decide
  pathFits := by decide
  pathClean := by decide +kernel

theorem httpParseRequest_text_upgrade :
    httpParseRequest (upgradeHead.text ++ [129]) =
        .done (upgradeHead.text.length, upgradeHead.request) ∧
      httpParseRequest ((upgradeHead.text ++ [129]).take 40) = .incomplete :=
  ⟨(httpParseRequest_text upgradeHead [129]).1,
    (httpParseRequest_text upgradeHead [129]).2 40 (by decide +kernel)⟩

example : upgradeHead.request = { HttpRequest.zeroed with
    method := .printf 7 (.lit "GET")
    path := .printf 255 (.lit "/")
    origin := .printf 255 (.lit "https://cad.onshape.com")
    isWsUpgrade := true } := by
  decide +kernel

end SpnavBridge.Wire
