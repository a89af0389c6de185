/-
# Wire.Http -- the request parser of http.c, and the allow-list of origins.c

`headerLines` is the loop over the header block: it is given the bytes before the
CRLFCRLF and cuts them at each LF.  Each line then goes through the 1024-byte `line` of
the source (`copyLine`), so a field is what a C string in that array says, and not always
what the sender wrote.

* `stable_httpParseRequest`: the verdict on a buffer does not change when more arrives.
* `consumed_of_httpParseRequest`: the header block is not empty and lies in the buffer.
-/
import Mathlib.Data.List.DropRight
import SpnavBridge.Theory.CString
import SpnavBridge.Theory.Incremental

namespace SpnavBridge.Wire

open SpnavBridge.Theory

set_option autoImplicit false

/-! ## The end of the block -/

def crlfcrlf : List UInt8 := [13, 10, 13, 10]

/-- `find_header_end`, as an index. -/
def findHeaderEnd : List UInt8 → Option Nat
  | [] => none
  | b :: rest =>
      if crlfcrlf <+: b :: rest then some 0 else (findHeaderEnd rest).map (· + 1)

theorem findHeaderEnd_cons {b : UInt8} {rest : List UInt8} {i : Nat}
    (found : findHeaderEnd (b :: rest) = some i) :
    (crlfcrlf <+: b :: rest ∧ i = 0) ∨
      (¬ crlfcrlf <+: b :: rest ∧ ∃ j, findHeaderEnd rest = some j ∧ i = j + 1) := by
  unfold findHeaderEnd at found
  split_ifs at found with here
  · exact Or.inl ⟨here, by injection found with same; exact same.symm⟩
  · obtain ⟨j, later, same⟩ := Option.map_eq_some_iff.mp found
    exact Or.inr ⟨here, j, later, same.symm⟩

theorem findHeaderEnd_le {buf : List UInt8} {i : Nat} (found : findHeaderEnd buf = some i) :
    i + 4 ≤ buf.length := by
  induction buf generalizing i with
  | nil => cases found
  | cons b rest ih =>
      rcases findHeaderEnd_cons found with ⟨here, rfl⟩ | ⟨-, j, later, rfl⟩
      · exact here.length_le
      · have bound := ih later
        rw [List.length_cons]
        omega

theorem findHeaderEnd_append {buf : List UInt8} {i : Nat} (found : findHeaderEnd buf = some i)
    (more : List UInt8) : findHeaderEnd (buf ++ more) = some i := by
  induction buf generalizing i with
  | nil => cases found
  | cons b rest ih =>
      rw [List.cons_append, findHeaderEnd]
      rcases findHeaderEnd_cons found with ⟨here, rfl⟩ | ⟨away, j, later, rfl⟩
      · exact if_pos (here.trans (List.prefix_append (b :: rest) more))
      · have bound := findHeaderEnd_le later
        have away' : ¬ crlfcrlf <+: b :: (rest ++ more) := by
          intro here
          refine away (List.prefix_of_prefix_length_le here
            (List.prefix_append (b :: rest) more) ?_)
          rw [List.length_cons, show crlfcrlf.length = 4 from rfl]
          omega
        rw [if_neg away', ih later, Option.map_some]

/-! ## Lines -/

/-- The lines of the block, each without its LF.  The last one is ended by the CRLF at
`hdr_end`, so it keeps that CR. -/
def headerLines : List UInt8 → List (List UInt8)
  | [] => []
  | b :: rest =>
      if b = 10 then [] :: headerLines rest
      else
        match headerLines rest with
        | [] => [[b, 13]]
        | line :: lines => (b :: line) :: lines

/-- The bytes `rstrip` removes: CR, LF, blank and tab. -/
def isStripped (b : UInt8) : Bool := b = 13 || b = 10 || b = 32 || b = 9

def rstrip (s : CStr) : CStr :=
  ⟨s.bytes.rdropWhile isStripped, fun inside =>
    s.noNul ((List.rdropWhile_prefix _ _).subset inside)⟩

/-- The bytes `skip_ws` skips. -/
def isBlank (b : UInt8) : Bool := b = 32 || b = 9

def skipWs (s : CStr) : CStr := s.dropWhile isBlank

/-- `sizeof line - 1` -/
def lineMax : Nat := 1023

/-- A line as the parser sees it: at most 1023 bytes of it, up to a NUL, stripped. -/
def copyLine (line : List UInt8) : CStr := rstrip (.ofBytes (line.take lineMax))

/-! ## Requests -/

structure HttpRequest where
  method : CBuf 7
  path : CBuf 255
  origin : CBuf 255
  wsKey : CBuf 255
  isWsUpgrade : Bool
  contentLength : Nat
  deriving DecidableEq

/-- `memset(req, 0, sizeof *req)` -/
def HttpRequest.zeroed : HttpRequest :=
  ⟨.zeroed 7, .zeroed 255, .zeroed 255, .zeroed 255, false, 0⟩

/-- One `%s` of `sscanf` with a width, and what is left to scan. -/
def scanToken (width : Nat) (s : CStr) : CBuf width × CStr :=
  let s := s.dropWhile isspace
  let token := CBuf.printf width (s.takeWhile fun b => !isspace b)
  (token, s.drop token.str.length)

/-- `sscanf(line, "%7s %255s", ...)`, when it returns 2. -/
def scanRequestLine (line : CStr) : Option (CBuf 7 × CBuf 255) :=
  let method := scanToken 7 line
  let path := scanToken 255 method.2
  if method.1.str = .empty ∨ path.1.str = .empty then none else some (method.1, path.1)

/-- The request so far, with the two locals of the loop. -/
structure HeaderScan where
  req : HttpRequest
  upgradeHdr : Bool
  connectionUpgrade : Bool

def headerField (scan : HeaderScan) (name value : CStr) : HeaderScan :=
  if strcasecmp name (.lit "Origin") then
    { scan with req := { scan.req with origin := .printf 255 value } }
  else if strcasecmp name (.lit "Sec-WebSocket-Key") then
    { scan with req := { scan.req with wsKey := .printf 255 value } }
  else if strcasecmp name (.lit "Upgrade") then
    if strcasecmp value (.lit "websocket") then { scan with upgradeHdr := true } else scan
  else if strcasecmp name (.lit "Connection") then
    -- may be a comma-separated list
    if strcasestr value (.lit "upgrade") then { scan with connectionUpgrade := true } else scan
  else if strcasecmp name (.lit "Content-Length") then
    { scan with req := { scan.req with contentLength := (strtol value).toNat } }
  else scan

/-- A line after the first; one without a colon, empty ones included, says nothing. -/
def headerLine (scan : HeaderScan) (line : CStr) : HeaderScan :=
  match line.cut 58 with
  | some (name, value) => headerField scan name (skipWs value)
  | none => scan

/-- The request that the lines of a block make. -/
def requestOfLines : List (List UInt8) → Option HttpRequest
  | [] => some .zeroed
  | first :: fields =>
      (scanRequestLine (copyLine first)).map fun (method, path) =>
        let scan := (fields.map copyLine).foldl headerLine
          ⟨{ HttpRequest.zeroed with method, path }, false, false⟩
        { scan.req with isWsUpgrade := scan.upgradeHdr && scan.connectionUpgrade }

/-- `http_parse_request`: the length of the header block, and the request. -/
def httpParseRequest : Peek UInt8 (Nat × HttpRequest) := fun buf =>
  match findHeaderEnd buf with
  | none => .incomplete
  | some i =>
      match requestOfLines (headerLines (buf.take i)) with
      | none => .malformed
      | some req => .done (i + 4, req)

/-- **The parser does not change its verdict.** -/
theorem stable_httpParseRequest : httpParseRequest.Stable := by
  intro buf more decided
  unfold httpParseRequest at decided ⊢
  cases found : findHeaderEnd buf with
  | none => simp [found] at decided
  | some i =>
      have inside := findHeaderEnd_le found
      rw [findHeaderEnd_append found more]
      simp only [List.take_append_of_le_length (by omega : i ≤ buf.length)]

theorem httpParseRequest_eq_done {buf : List UInt8} {n : Nat} {req : HttpRequest} :
    httpParseRequest buf = .done (n, req) ↔
      ∃ i, findHeaderEnd buf = some i ∧ requestOfLines (headerLines (buf.take i)) = some req ∧
        n = i + 4 := by
  unfold httpParseRequest
  cases found : findHeaderEnd buf with
  | none => simp
  | some i =>
      cases made : requestOfLines (headerLines (buf.take i)) with
      | none => simp [made]
      | some req' =>
          simp only [Parsed.done.injEq, Prod.mk.injEq, Option.some.injEq, exists_eq_left', made]
          exact ⟨fun ⟨size, same⟩ => ⟨same, size.symm⟩, fun ⟨same, size⟩ => ⟨size.symm, same⟩⟩

theorem consumed_of_httpParseRequest {buf : List UInt8} {n : Nat} {req : HttpRequest}
    (parsed : httpParseRequest buf = .done (n, req)) : 0 < n ∧ n ≤ buf.length := by
  obtain ⟨i, found, -, rfl⟩ := httpParseRequest_eq_done.mp parsed
  exact ⟨Nat.succ_pos _, findHeaderEnd_le found⟩

example :
    httpParseRequest (ascii "GET /a HTTP/1.1\r\noRIGIN: \tx \r\nContent-Length: 3\r\n\r\nabc") =
      .done (51, { HttpRequest.zeroed with
        method := .printf 7 (.lit "GET")
        path := .printf 255 (.lit "/a")
        origin := .printf 255 (.lit "x")
        contentLength := 3 }) := by
  decide +kernel

/-! ## Origins -/

def allowedOrigins : List CStr := [.lit "https://cad.onshape.com"]

/-- `origin_allowed` -/
def originAllowed (origin : CStr) : Bool := decide (origin ∈ allowedOrigins)

end SpnavBridge.Wire
