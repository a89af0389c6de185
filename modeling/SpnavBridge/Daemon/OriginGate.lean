/-
# Daemon.OriginGate -- what a request gets out of the bridge, and the Origin line it needs

Everything a page could want of the bridge (`grants`) is handed out on one request, the first
of the connection, and only if the parser read an allowed origin (`drain_grants`).  The parser
reads the front of a line, so that it is not always the origin that was sent:
`origin_gate` says when the two part.
-/
import SpnavBridge.Daemon.Client
import SpnavBridge.Wire.Origins

namespace SpnavBridge.Daemon

open SpnavBridge.Theory SpnavBridge.Wire SpnavBridge.Kernel Connection

set_option autoImplicit false

/-! ## What is at stake -/

/-- The controller of a connection. -/
def Phase.ctrl? {F : Type} : Phase F → Option (Controller F)
  | .http => none
  | .ws ctrl _ => some ctrl
  | .closing ctrl => ctrl

def corsName : List UInt8 := ascii "Access-Control-Allow-Origin"

def carriesCors (data : List UInt8) : Bool := decide (corsName <:+: data)

/-- The sensitivity changes or is told, or a response allows an origin to read it. -/
def Act.grants {F : Type} : Act F → Bool
  | .queue data => carriesCors data
  | .assign _ => true
  | .readOut => true
  | _ => false

/-- A controller was created for the connection, or something it did grants. -/
def grants {F : Type} (s : Served F) (log : List (Act F)) : Bool :=
  s.phase.ctrl?.isSome || log.any Act.grants

/-! ## One request -/

/-- The request is one whose answer depends on its origin: an upgrade with a usable key,
or one of the three plain requests. -/
def looksAtOrigin (req : HttpRequest) : Bool :=
  if req.isWsUpgrade then
    req.wsKey.str ≠ .empty && decide ((req.wsKey.str.append wsGuid).length < 256)
  else
    req.method.str = .lit "OPTIONS" || req.path.str = .lit "/3dconnexion/nlproxy" ||
      req.path.str = .lit "/spnav/sensitivity"

variable {D F : Type} [CDouble D F]

theorem sendHttpResponse_grants (status : Nat) (statusText extraHeaders body : CStr) :
    (sendHttpResponse status statusText extraHeaders body : List (Act F)).any Act.grants =
      (carriesCors (responseHeader status statusText extraHeaders body) ||
        carriesCors body.bytes) := by
  rw [sendHttpResponse, List.any_cons]
  by_cases nothing : body = .empty
  · rw [if_pos nothing, nothing]
    rfl
  · rw [if_neg nothing]
    simp [Act.grants]

/-- The refusals of an origin and of a key grant nothing. -/
theorem forbidden_grants :
    (sendHttpResponse 403 (.lit "Forbidden") .empty (.lit "origin not allowed") :
      List (Act F)).any Act.grants = false := by
  rw [sendHttpResponse_grants]
  decide +kernel

theorem missingKey_grants :
    (sendHttpResponse 400 (.lit "Bad Request") .empty (.lit "missing Sec-WebSocket-Key") :
      List (Act F)).any Act.grants = false := by
  rw [sendHttpResponse_grants]
  decide +kernel

theorem origin_of_allowed {req : HttpRequest} (allowed : originAllowed req.origin.str = true) :
    req.origin.str = .lit "https://cad.onshape.com" := by
  rw [originAllowed, decide_eq_true_eq] at allowed
  exact List.mem_singleton.mp allowed

theorem appendCorsHeader_of_allowed {req : HttpRequest}
    (allowed : originAllowed req.origin.str = true) (hdr : CBuf 511) :
    appendCorsHeader req hdr =
      .printf 511 (hdr.str.append (.lit ("Access-Control-Allow-Origin: https://cad.onshape.com\r\n" ++
        "Access-Control-Allow-Private-Network: true\r\n"))) := by
  rw [appendCorsHeader, if_pos allowed, origin_of_allowed allowed]
  rfl

theorem appendCorsHeader_of_not_allowed {req : HttpRequest}
    (refused : originAllowed req.origin.str = false) (hdr : CBuf 511) :
    appendCorsHeader req hdr = hdr := if_neg (by simp [refused])

theorem handleOptions_grants (req : HttpRequest) :
    (handleOptions req : List (Act F)).any Act.grants = originAllowed req.origin.str := by
  rw [handleOptions, sendHttpResponse_grants]
  cases allowed : originAllowed req.origin.str with
  | true =>
      rw [appendCorsHeader_of_allowed allowed]
      decide +kernel
  | false =>
      rw [appendCorsHeader_of_not_allowed allowed]
      decide +kernel

theorem handleNlproxy_grants (req : HttpRequest) :
    (handleNlproxy req : List (Act F)).any Act.grants = originAllowed req.origin.str := by
  rw [handleNlproxy, sendHttpResponse_grants]
  cases allowed : originAllowed req.origin.str with
  | true =>
      rw [appendCorsHeader_of_allowed allowed]
      decide +kernel
  | false =>
      rw [appendCorsHeader_of_not_allowed allowed]
      decide +kernel

section Handlers

variable [CFloat F]

theorem handleSensitivity_grants (o : Outside D) (w : World F) (req : HttpRequest)
    (body : List UInt8) :
    (handleSensitivityRequest o w req body).2.any Act.grants = originAllowed req.origin.str := by
  unfold handleSensitivityRequest
  cases allowed : originAllowed req.origin.str with
  | false =>
      rw [if_pos (by simp)]
      exact forbidden_grants
  | true =>
      rw [if_neg (by simp), appendCorsHeader_of_allowed allowed]
      simp only
      split_ifs with post get
      · cases requestedSensitivity o body with
        | none =>
            simp only [sendHttpResponse_grants]
            decide +kernel
        | some value => rfl
      · rw [sendHttpResponse_grants]
        decide +kernel
      · rfl

theorem handlePlain_grants (o : Outside D) (w : World F) (req : HttpRequest) (body : List UInt8)
    (plain : req.isWsUpgrade = false) :
    (handlePlainRequest o w req body).2.any Act.grants =
      (looksAtOrigin req && originAllowed req.origin.str) := by
  rw [looksAtOrigin, plain, if_neg (by decide)]
  unfold handlePlainRequest
  split_ifs with options nlproxy sensitivity
  · simpa [options] using handleOptions_grants (F := F) req
  · simpa [nlproxy] using handleNlproxy_grants (F := F) req
  · simpa [sensitivity] using handleSensitivity_grants o w req body
  · rw [sendHttpResponse_grants]
    simp only [options, nlproxy, sensitivity, decide_false, Bool.or_self, Bool.false_and]
    decide +kernel

theorem handleUpgrade_grants (o : Outside D) (w : World F) (req : HttpRequest)
    (upgrade : req.isWsUpgrade = true) :
    ((handleWsUpgrade o w req).2.1.isSome || (handleWsUpgrade o w req).2.2.any Act.grants) =
      (looksAtOrigin req && originAllowed req.origin.str) := by
  rw [looksAtOrigin, upgrade, if_pos rfl]
  unfold handleWsUpgrade
  cases allowed : originAllowed req.origin.str with
  | false =>
      rw [if_pos (by simp), Bool.and_false]
      exact forbidden_grants (F := F)
  | true =>
      rw [if_neg (by simp), Bool.and_true]
      by_cases nothing : req.wsKey.str = .empty
      · simp [nothing, missingKey_grants]
      · by_cases fits : (req.wsKey.str.append wsGuid).length < 256
        · simp [nothing, fits, wsComputeAccept, not_le.mpr fits]
        · simp [nothing, fits, wsComputeAccept, not_lt.mp fits, missingKey_grants]

/-- **One request** gets something exactly if its answer depends on its origin and the parser
read an allowed one. -/
theorem handled_grants (o : Outside D) (w : World F) (req : HttpRequest) (body : List UInt8) :
    ((handleHttpRequest o w req body).2.1.isSome ||
        (handleHttpRequest o w req body).2.2.any Act.grants) =
      (looksAtOrigin req && originAllowed req.origin.str) := by
  unfold handleHttpRequest
  cases upgrade : req.isWsUpgrade with
  | true => exact handleUpgrade_grants o w req upgrade
  | false => exact (Bool.false_or _).trans (handlePlain_grants o w req body upgrade)

/-! ## A stream -/

theorem deliver_ctrl (o : Outside D) (w : World F) (ctrl : Controller F) (payload : List UInt8) :
    (deliver o w ctrl payload).1.phase.ctrl?.isSome = true := by
  simp only [deliver]
  split_ifs <;> rfl

theorem appendData_ctrl {o : Outside D} {w : World F} {ctrl : Controller F} {msg : Reassembly}
    {frame : Frame} {s' : Served F} {acts : List (Act F)}
    (handled : appendData o w ctrl msg frame = some (s', acts)) : s'.phase.ctrl?.isSome = true := by
  unfold appendData at handled
  by_cases text : msg.opcode = some wsOpText
  · rw [if_pos text] at handled
    cases taken : msg.append frame.payload with
    | none => simp [taken] at handled
    | some msg' =>
        simp only [taken] at handled
        by_cases fin : frame.fin = true
        · rw [if_pos fin, Option.some.injEq] at handled
          have delivered := deliver_ctrl o w ctrl msg'.msgbuf
          rwa [handled] at delivered
        · rw [if_neg fin] at handled
          cases handled
          rfl
  · rw [if_neg text] at handled
    cases handled
    rfl

theorem handleFrame_ctrl {o : Outside D} {w : World F} {ctrl : Controller F} {msg : Reassembly}
    {frame : Frame} {s' : Served F} {acts : List (Act F)}
    (handled : handleFrame o w ctrl msg frame = some (s', acts)) :
    s'.phase.ctrl?.isSome = true := by
  unfold handleFrame at handled
  split_ifs at handled
  · exact appendData_ctrl handled
  all_goals
    cases handled
    rfl

/-- A controller stays with its connection. -/
theorem processOnce_ctrl {o : Outside D} {s s' : Served F} {buf rest : List UInt8}
    {acts : List (Act F)} (turned : processOnce o s buf = some (s', rest, acts))
    (created : s.phase.ctrl?.isSome = true) : s'.phase.ctrl?.isSome = true := by
  obtain ⟨w, phase⟩ := s
  cases phase with
  | http => cases created
  | closing ctrl => cases turned
  | ws ctrl msg =>
      cases verdict : readOnce o ⟨w, .ws ctrl msg⟩ buf with
      | incomplete =>
          rw [processOnce_of_incomplete verdict] at turned
          cases turned
      | malformed =>
          rw [processOnce_of_malformed verdict] at turned
          cases turned
          rfl
      | done value =>
          obtain ⟨t, n, acts'⟩ := value
          rw [processOnce_of_done verdict] at turned
          cases turned
          obtain ⟨frame, -, handled, -⟩ := readFrame_eq_done verdict
          exact handleFrame_ctrl handled

theorem drain_ctrl (o : Outside D) (s : Served F) (buf : List UInt8)
    (created : s.phase.ctrl?.isSome = true) :
    (drain (processOnce o) s buf).state.phase.ctrl?.isSome = true := by
  induction s, buf using drain_induction (incremental_processOnce o) with
  | stuck s buf waits =>
      rw [drain_of_none waits]
      exact created
  | step s buf s' rest acts turned ih =>
      rw [drain_of_some (incremental_processOnce o) turned]
      exact ih (processOnce_ctrl turned created)

/-- The stream begins with a whole request whose answer depends on its origin. -/
def Asks (stream : List UInt8) : Prop :=
  ∃ size req, httpParseRequest stream = .done (size, req) ∧ req.contentLength ≤ bodyMax ∧
    size + req.contentLength ≤ stream.length ∧ looksAtOrigin req = true

/-- The bytes before the first CRLFCRLF. -/
def headerBlock (stream : List UInt8) : List UInt8 :=
  match findHeaderEnd stream with
  | some i => stream.take i
  | none => []

theorem headerBlock_of_parsed {stream : List UInt8} {size : Nat} {req : HttpRequest}
    (parsed : httpParseRequest stream = .done (size, req)) :
    requestOfLines (headerLines (headerBlock stream)) = some req := by
  obtain ⟨i, found, made, -⟩ := httpParseRequest_eq_done.mp parsed
  rw [headerBlock, found]
  exact made

/-- **A stream** gets something exactly if it asks for it and the parser reads an allowed
origin in its header block. -/
theorem drain_grants (o : Outside D) (w : World F) (stream : List UInt8) :
    grants (drain (processOnce o) ⟨w, .http⟩ stream).state (drain (processOnce o) ⟨w, .http⟩ stream).out
        = true ↔
      Asks stream ∧ ShowsAllowed (headerLines (headerBlock stream)) := by
  have inc := incremental_processOnce (F := F) o
  cases verdict : readOnce o (⟨w, .http⟩ : Served F) stream with
  | incomplete =>
      rw [drain_of_none (processOnce_of_incomplete verdict)]
      refine ⟨fun got => absurd got (by simp [grants, Phase.ctrl?]), ?_⟩
      rintro ⟨⟨size, req, parsed, short, whole, -⟩, -⟩
      obtain ⟨done, read⟩ := readRequest_of_parsed (o := o) (w := w) parsed short whole
      cases verdict.symm.trans read
  | malformed =>
      rw [drain_of_some inc (processOnce_of_malformed verdict),
        drain_of_none (processOnce_closing o rfl _)]
      refine ⟨fun got => absurd got (by simp [grants, Served.close, Phase.ctrl?]), ?_⟩
      rintro ⟨⟨size, req, parsed, short, whole, -⟩, -⟩
      obtain ⟨done, read⟩ := readRequest_of_parsed (o := o) (w := w) parsed short whole
      cases verdict.symm.trans read
  | done value =>
      obtain ⟨s', n, acts⟩ := value
      obtain ⟨size, req, body, parsed, short, whole, -, -, phase, did⟩ := readRequest_eq_done verdict
      have asks : Asks stream ↔ looksAtOrigin req = true := by
        constructor
        · rintro ⟨size', req', parsed', -, -, looks⟩
          cases parsed.symm.trans parsed'
          exact looks
        · intro looks
          exact ⟨size, req, parsed, short, whole, looks⟩
      rw [asks, ← originAllowed_iff (headerBlock_of_parsed parsed), ← Bool.and_eq_true,
        ← handled_grants o w req body, drain_of_some inc (processOnce_of_done verdict)]
      cases created : (handleHttpRequest o w req body).2.1 with
      | some ctrl =>
          have opened : s'.phase.ctrl?.isSome = true := by
            rw [phase, created]
            rfl
          simp [grants, drain_ctrl o s' _ opened]
      | none =>
          have closed : s'.phase = .closing none := by rw [phase, created]
          rw [drain_of_none (processOnce_closing o (by rw [closed]; rfl) _)]
          simp only [grants, closed, List.append_nil, did]
          rfl

/-! ## The gate -/

/-- The last Origin line has something behind the part that is shown, that part reads as an
allowed origin, and no line of the block has an allowed origin as its complete value. -/
def Disguised (block : List UInt8) : Prop :=
  (∃ line, lastOrigin (rawLines block).tail = some line ∧ NamesAllowed (shown line) ∧
    ∃ b ∈ hidden line, isStripped b = false) ∧ ¬ Genuine block

/-- An allowed origin that is shown is genuine, unless it is a disguise. -/
theorem disguised_iff (block : List UInt8) :
    Disguised block ↔ ShowsAllowed (headerLines block) ∧ ¬ Genuine block := by
  apply and_congr_left
  intro fake
  rw [ShowsAllowed, ← lastOrigin_rawLines]
  constructor
  · rintro ⟨line, last, allowed, -⟩
    exact ⟨line, last, allowed⟩
  · rintro ⟨line, last, allowed⟩
    refine ⟨line, last, allowed, ?_⟩
    by_contra nothing
    push Not at nothing
    obtain ⟨value, inside, read⟩ := allowed
    have blank : ∀ b ∈ hidden line, isStripped b = true := by simpa using nothing
    have whole := originValue_append (by rw [read]; rfl) blank
    rw [shown_append_hidden, read] at whole
    have mem : line ∈ rawLines block :=
      List.mem_of_mem_tail (List.mem_of_mem_filter (List.mem_of_getLast? last))
    exact fake ⟨line, mem, value, inside, whole⟩

end Handlers

/-! ### A browser, and a sender that is none -/

/-- A NUL ends the origin that is read, and not the one that was sent. -/
def disguise : List UInt8 := onshape ++ 0 :: ascii ".example.org"

end SpnavBridge.Daemon
