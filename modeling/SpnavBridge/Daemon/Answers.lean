/-
# Daemon.Answers -- what a request is answered with

Whatever a request says, its answer is one response that a strict client reads to its last byte:
the body is as long as `Content-Length` says, the header block fits the array it is printed in,
and a page of another origin than the allowed one is not let in (`handled_answers`).  In any run
a connection that does not become a WebSocket is sent this response and nothing else
(`asker_hears`).
-/
import SpnavBridge.Daemon.OriginGate
import SpnavBridge.Daemon.Peer
import SpnavBridge.Wire.Response

namespace SpnavBridge.Daemon

open SpnavBridge.Theory SpnavBridge.Wire SpnavBridge.Kernel

set_option autoImplicit false
set_option linter.unusedSectionVars false

variable {D F : Type} [CFloat F] [CDouble D F]

/-! ## Fields -/

abbrev Fields := List (List UInt8 × List UInt8)

def typeField : List UInt8 × List UInt8 := (ascii "Content-Type", ascii "application/json")

def corsFields : Fields :=
  [(ascii "Access-Control-Allow-Origin", ascii "https://cad.onshape.com"),
    (ascii "Access-Control-Allow-Private-Network", ascii "true")]

def preflightFields : Fields :=
  [(ascii "Access-Control-Allow-Methods", ascii "GET, POST, OPTIONS"),
    (ascii "Access-Control-Allow-Headers", ascii "*")]

/-- The fields that the bridge adds to those of `send_http_response`. -/
inductive Extra (req : HttpRequest) : Fields → Prop
  | none : Extra req []
  | json : Extra req [typeField]
  | jsonAllowed (allowed : originAllowed req.origin.str = true) : Extra req (typeField :: corsFields)
  | preflight : Extra req preflightFields
  | preflightAllowed (allowed : originAllowed req.origin.str = true) :
      Extra req (corsFields ++ preflightFields)

/-- `extra_headers` is these fields. -/
def Renders (extra : CStr) (fields : Fields) : Prop := extra.bytes = fields.flatMap renderField

def lengthField (body : CStr) : List UInt8 × List UInt8 :=
  (ascii "Content-Length", decimalText body.length)

def closeField : List UInt8 × List UInt8 := (ascii "Connection", ascii "close")

/-- The response that a client is to make of `send_http_response`. -/
def responseOf (status : Nat) (statusText : CStr) (fields : Fields) (body : CStr) : Response :=
  ⟨status, statusText.bytes, lengthField body :: (fields ++ [closeField]), body.bytes⟩

theorem isField_length (body : CStr) : IsField (lengthField body) := by
  have digits := decimalText_digits body.length
  have some_ : ascii "Content-Length" ≠ [] := by decide
  have name : 58 ∉ ascii "Content-Length" ∧ 13 ∉ ascii "Content-Length" := by decide
  refine ⟨some_, name, fun mem => ?_, fun blank => ?_⟩
  · exact absurd (digits 13 mem) (by decide)
  · exact absurd (digits 32 (List.mem_of_head? blank)) (by decide)

namespace Extra

variable {req : HttpRequest} {fields : Fields} (extra : Extra req fields)
include extra

theorem isField : ∀ field ∈ fields, IsField field := by
  cases extra <;> decide

/-- None of them tells a length, or anything else twice. -/
theorem lengths : valuesOf "Content-Length" fields = [] := by
  cases extra <;> decide

theorem connections : valuesOf "Connection" fields = [] := by
  cases extra <;> decide

/-- An origin is let in if it is the one that was allowed. -/
theorem origins : valuesOf "Access-Control-Allow-Origin" fields = [] ∨
    valuesOf "Access-Control-Allow-Origin" fields = [req.origin.str.bytes] ∧
      originAllowed req.origin.str = true := by
  cases extra with
  | none | json | preflight => exact Or.inl (by decide)
  | jsonAllowed allowed | preflightAllowed allowed =>
      rw [origin_of_allowed allowed]
      exact Or.inr ⟨by decide, by decide⟩

end Extra

/-! ## One response -/

theorem valuesOf_append (name : String) (fields more : Fields) :
    valuesOf name (fields ++ more) = valuesOf name fields ++ valuesOf name more := by
  simp [valuesOf]

theorem responseHeader_eq {extra : CStr} {fields : Fields} (renders : Renders extra fields)
    (status : Nat) (statusText body : CStr) :
    responseHeader status statusText extra body =
      renderHead status statusText.bytes (lengthField body :: (fields ++ [closeField])) := by
  have first : renderField (lengthField body) =
      ascii "Content-Length: " ++ (decimalText body.length ++ crlf) := rfl
  have last : renderField closeField ++ crlf = ascii "Connection: close\r\n\r\n" := by decide
  have split : ascii "\r\nContent-Length: " = crlf ++ ascii "Content-Length: " := by decide
  rw [responseHeader, renders, renderHead, List.flatMap_cons, List.flatMap_append,
    List.flatMap_singleton, first, split]
  simp only [List.append_assoc, last]
  rfl

/-- What a client should know of an answer. -/
structure Answers (req : HttpRequest) (r : Response) : Prop where
  known : r.status ∈ [200, 204, 400, 403, 404, 405]
  length : contentLength r.fields = some r.body.length
  closes : valuesOf "Connection" r.fields = [ascii "close"]
  /-- No page of another origin may read it. -/
  origin : valuesOf "Access-Control-Allow-Origin" r.fields = [] ∨
    valuesOf "Access-Control-Allow-Origin" r.fields = [req.origin.str.bytes] ∧
      originAllowed req.origin.str = true

/-- The acts queue a header block that fits `hdr`, and with the body the whole response. -/
structure Sends (acts : List (Act F)) (r : Response) : Prop where
  fits : ∀ header ∈ (queuedData acts).head?, header.length < 1024
  reads : ∀ more, readResponse ((queuedData acts).flatten ++ more) = some (r, more)

theorem valuesOf_responseOf (name : String) (status : Nat) (statusText : CStr) (fields : Fields)
    (body : CStr) : valuesOf name (responseOf status statusText fields body).fields =
      valuesOf name [lengthField body] ++ (valuesOf name fields ++ valuesOf name [closeField]) := by
  show valuesOf name ([lengthField body] ++ (fields ++ [closeField])) = _
  rw [valuesOf_append, valuesOf_append]

theorem contentLength_responseOf {req : HttpRequest} {fields : Fields} (extra : Extra req fields)
    (status : Nat) (statusText body : CStr) :
    contentLength (responseOf status statusText fields body).fields = some body.bytes.length := by
  have once : valuesOf "Content-Length" (responseOf status statusText fields body).fields =
      [decimalText body.length] := by
    rw [valuesOf_responseOf, extra.lengths]
    rfl
  rw [contentLength, once]
  exact readDecimal_decimalText _

theorem answers_responseOf {req : HttpRequest} {fields : Fields} (extra : Extra req fields)
    {status : Nat} (known : status ∈ [200, 204, 400, 403, 404, 405]) (statusText body : CStr) :
    Answers req (responseOf status statusText fields body) where
  known := known
  length := contentLength_responseOf extra status statusText body
  closes := by
    rw [valuesOf_responseOf, extra.connections]
    rfl
  origin := by
    have others : valuesOf "Access-Control-Allow-Origin"
        (responseOf status statusText fields body).fields =
          valuesOf "Access-Control-Allow-Origin" fields := by
      rw [valuesOf_responseOf]
      exact List.append_nil _
    rw [others]
    exact extra.origins

/-- **A response is sent whole.** -/
theorem sends_sendHttpResponse {req : HttpRequest} {fields : Fields} (extra : Extra req fields)
    {extraHeaders : CStr} (renders : Renders extraHeaders fields) (short : extraHeaders.length ≤ 511)
    {status : Nat} (known : status ∈ [200, 204, 400, 403, 404, 405]) {statusText : CStr}
    (clean : 13 ∉ statusText.bytes) (brief : statusText.length ≤ 32) {body : CStr}
    (small : body.length < 1000) :
    Sends (F := F) (sendHttpResponse status statusText extraHeaders body)
      (responseOf status statusText fields body) := by
  have three : 100 ≤ status ∧ status < 1000 := by
    simp only [List.mem_cons, List.not_mem_nil, or_false] at known
    omega
  have queued : (queuedData (sendHttpResponse (F := F) status statusText extraHeaders body)).flatten =
      responseHeader status statusText extraHeaders body ++ body.bytes := by
    unfold sendHttpResponse
    split_ifs with nothing
    · rw [nothing]
      rfl
    · show responseHeader .. ++ (body.bytes ++ []) = _
      rw [List.append_nil]
  constructor
  · intro header first
    obtain rfl : responseHeader status statusText extraHeaders body = header := by
      unfold sendHttpResponse at first
      exact Option.some.inj first
    have code := length_decimalText_le (n := status) (k := 3) (by decide) three.2
    have size := length_decimalText_le (n := body.length) (k := 3) (by decide) small
    have front : (ascii "HTTP/1.1 ").length = 9 := by decide
    have middle : (ascii "\r\nContent-Length: ").length = 18 := by decide
    have last : (ascii "Connection: close\r\n\r\n").length = 21 := by decide
    have blank : (ascii " ").length = 1 := by decide
    have turn : (ascii "\r\n").length = 2 := by decide
    rw [CStr.length] at brief short
    simp only [responseHeader, List.length_append, front, middle, last, blank, turn,
      show decimal = decimalText from rfl]
    omega
  -- what is told by the header is what comes behind it
  · intro more
    rw [queued, responseHeader_eq renders, List.append_assoc]
    refine readResponse_render three clean (fun field mem => ?_)
      (contentLength_responseOf extra status statusText body) more
    rcases List.mem_cons.mp mem with rfl | mem
    · exact isField_length body
    · rcases List.mem_append.mp mem with mem | mem
      · exact extra.isField field mem
      · rw [List.mem_singleton.mp mem]
        decide

/-! ## The handlers -/

/-- The acts are one response that answers the request. -/
def AnswersWhole (req : HttpRequest) (acts : List (Act F)) : Prop :=
  ∃ r, Answers req r ∧ Sends acts r

theorem answered_send {req : HttpRequest} {fields : Fields} (extra : Extra req fields)
    {extraHeaders : CStr} (renders : Renders extraHeaders fields) (short : extraHeaders.length ≤ 511)
    {status : Nat} (known : status ∈ [200, 204, 400, 403, 404, 405]) {statusText : CStr}
    (clean : 13 ∉ statusText.bytes) (brief : statusText.length ≤ 32) {body : CStr}
    (small : body.length < 1000) :
    AnswersWhole (F := F) req (sendHttpResponse status statusText extraHeaders body) :=
  ⟨_, answers_responseOf extra known statusText body,
    sends_sendHttpResponse extra renders short known clean brief small⟩

/-- The fields of an answer in JSON. -/
theorem json_extra (req : HttpRequest) : ∃ fields, Extra req fields ∧
    Renders (appendCorsHeader req jsonHeader).str fields := by
  cases allowed : originAllowed req.origin.str with
  | true =>
      refine ⟨_, .jsonAllowed allowed, ?_⟩
      rw [Renders, appendCorsHeader_of_allowed allowed]
      decide
  | false =>
      refine ⟨_, .json, ?_⟩
      rw [Renders, appendCorsHeader_of_not_allowed allowed]
      decide

theorem answered_json (req : HttpRequest) {status : Nat}
    (known : status ∈ [200, 204, 400, 403, 404, 405]) {statusText : CStr}
    (clean : 13 ∉ statusText.bytes) (brief : statusText.length ≤ 32) {body : CStr}
    (small : body.length < 1000) :
    AnswersWhole (F := F) req
      (sendHttpResponse status statusText (appendCorsHeader req jsonHeader).str body) := by
  obtain ⟨fields, extra, renders⟩ := json_extra req
  exact answered_send extra renders (appendCorsHeader req jsonHeader).fits known clean brief small

theorem renders_empty : Renders .empty [] := by
  rw [Renders]
  rfl

theorem answered_bare (req : HttpRequest) {status : Nat}
    (known : status ∈ [200, 204, 400, 403, 404, 405]) {statusText : CStr}
    (clean : 13 ∉ statusText.bytes) (brief : statusText.length ≤ 32) {body : CStr}
    (small : body.length < 1000) :
    AnswersWhole (F := F) req (sendHttpResponse status statusText .empty body) :=
  answered_send .none renders_empty (Nat.zero_le _) known clean brief small

theorem answered_forbidden (req : HttpRequest) : AnswersWhole (F := F) req
    (sendHttpResponse 403 (.lit "Forbidden") .empty (.lit "origin not allowed")) :=
  answered_bare req (by decide) (by decide) (by decide) (by decide)

theorem answered_options (req : HttpRequest) : AnswersWhole (F := F) req (handleOptions req) := by
  have whole : ∃ fields, Extra req fields ∧ Renders (CBuf.printf 511
      ((appendCorsHeader req (.zeroed 511)).str.append
        (.lit ("Access-Control-Allow-Methods: GET, POST, OPTIONS\r\n" ++
          "Access-Control-Allow-Headers: *\r\n")))).str fields := by
    cases allowed : originAllowed req.origin.str with
    | true =>
        refine ⟨_, .preflightAllowed allowed, ?_⟩
        rw [Renders, appendCorsHeader_of_allowed allowed]
        decide +kernel
    | false =>
        refine ⟨_, .preflight, ?_⟩
        rw [Renders, appendCorsHeader_of_not_allowed allowed]
        decide
  obtain ⟨fields, extra, renders⟩ := whole
  exact answered_send extra renders (CBuf.fits _) (by decide) (by decide) (by decide) (by decide)

/-- The mark that the sensitivity was told queues nothing. -/
theorem AnswersWhole.marked {req : HttpRequest} {acts : List (Act F)} (answered : AnswersWhole req acts)
    {act : Act F} (mark : queuedData [act] = []) : AnswersWhole req (act :: acts) := by
  obtain ⟨r, answers, fits, reads⟩ := answered
  have same : queuedData (act :: acts) = queuedData acts := by
    have split : queuedData ([act] ++ acts) = _ := queuedData_append [act] acts
    rwa [mark, List.nil_append] at split
  exact ⟨r, answers, by rwa [same], by rwa [same]⟩

theorem answered_sensitivity (o : Outside D) (w : World F) (req : HttpRequest)
    (body : List UInt8) : AnswersWhole req (handleSensitivityRequest o w req body).2 := by
  have report : ∀ w : World F,
      AnswersWhole req (reportSensitivity o w (appendCorsHeader req jsonHeader)) := fun w =>
    (answered_json req (by decide) (by decide) (by decide)
      (lt_of_le_of_lt (CBuf.fits _) (by decide))).marked rfl
  unfold handleSensitivityRequest
  split_ifs
  · exact answered_forbidden req
  · cases requestedSensitivity o body with
    | none => exact answered_json req (by decide) (by decide) (by decide) (by decide)
    | some value => exact (report _).marked rfl
  · exact answered_json req (by decide) (by decide) (by decide) (by decide)
  · exact report w

/-- **A request that begins no WebSocket is answered once.** -/
theorem handled_answers (o : Outside D) (w : World F) (req : HttpRequest) (body : List UInt8) :
    (handleHttpRequest o w req body).2.1 = none →
      AnswersWhole req (handleHttpRequest o w req body).2.2 := by
  unfold handleHttpRequest
  split_ifs with upgrade
  · unfold handleWsUpgrade
    by_cases refused : (!originAllowed req.origin.str) = true
    · rw [if_pos refused]
      exact fun _ => answered_forbidden req
    · rw [if_neg refused]
      dsimp only
      cases if req.wsKey.str = .empty then none
          else wsComputeAccept o.digest req.wsKey.str with
      | none => exact fun _ => answered_bare req (by decide) (by decide) (by decide) (by decide)
      | some accept => exact fun created => nomatch created
  · intro _
    show AnswersWhole req (handlePlainRequest o w req body).2
    unfold handlePlainRequest
    split_ifs
    · exact answered_options req
    · exact answered_json req (by decide) (by decide) (by decide) (by decide)
    · exact answered_sensitivity o w req body
    · exact answered_bare req (by decide) (by decide) (by decide) (by decide)

/-- An upgrade that is granted begins with the 101. -/
theorem handled_upgrade {o : Outside D} {w : World F} {req : HttpRequest} {body : List UInt8}
    {ctrl : Controller F} (created : (handleHttpRequest o w req body).2.1 = some ctrl) :
    originAllowed req.origin.str = true ∧ ∃ accept,
      (handleHttpRequest o w req body).2.2.take 1 = [.queue (switchingProtocols accept)] := by
  unfold handleHttpRequest at created ⊢
  split_ifs at created ⊢ with upgrade
  · unfold handleWsUpgrade at created ⊢
    by_cases refused : (!originAllowed req.origin.str) = true
    · rw [if_pos refused] at created
      cases created
    · rw [if_neg refused] at created ⊢
      dsimp only at created ⊢
      refine ⟨by simpa using refused, ?_⟩
      cases accepted : if req.wsKey.str = .empty then none
          else wsComputeAccept o.digest req.wsKey.str with
      | none =>
          rw [accepted] at created
          cases created
      | some accept => exact ⟨accept, rfl⟩

/-! ## Runs -/

/-- What is queued for a request that begins no talk: a response, or a 101 that no controller
stands behind. -/
theorem replies_bytes (o : Outside D) (w : World F) (req : HttpRequest) (body : List UInt8) :
    (∃ r, Answers req r ∧
        readResponse (queuedData (replies o w req body)).flatten = some (r, [])) ∨
      originAllowed req.origin.str = true ∧ ∃ accept,
        (queuedData (replies o w req body)).flatten = switchingProtocols accept := by
  unfold replies
  cases created : (handleHttpRequest o w req body).2.1 with
  | none =>
      obtain ⟨r, answers, -, reads⟩ := handled_answers o w req body created
      have whole := reads []
      rw [List.append_nil] at whole
      exact Or.inl ⟨r, answers, whole⟩
  | some ctrl =>
      obtain ⟨allowed, accept, first⟩ := handled_upgrade created
      refine Or.inr ⟨allowed, accept, ?_⟩
      dsimp only
      rw [first]
      exact List.append_nil _

/-- **What a connection without a controller is sent**: nothing, or one response to the one
request that it made, whole and with nothing behind it, and then the connection is closing. -/
theorem asker_hears (p : Platform D) (sensitivity : F) (saved : Option CStr)
    (polls : List PollResult) (i : Fin maxClients) :
    let log := history (slotEvents p sensitivity saved polls i)
    let cl := ((mainLoop p sensitivity saved).after polls).clients i
    let bytes := acceptedBytes (outputs log) ++ cl.out.outbuf
    ∃ talk : Option (Talk F),
      cl.ctrl = talk.map (fun t => t.controller p.toOutside) ∧
      (talk = none → cl.used = true → bytes = [] ∨ cl.phase = .closing ∧
        ∃ req body, [.request req body] <+: said (received log) ∧
          ((∃ r, Answers req r ∧ readResponse bytes = some (r, [])) ∨
            originAllowed req.origin.str = true ∧ ∃ accept, bytes = switchingProtocols accept)) := by
  intro log cl bytes
  obtain ⟨talk, stands, untold, -⟩ := stands_run p sensitivity saved polls i
  cases used : cl.used with
  | false =>
      obtain rfl := untold used
      refine ⟨none, ?_, fun _ there => Bool.noConfusion there⟩
      rw [show cl = .closed from ((shape_run (p := p) sensitivity saved polls i).2 used).1]
      rfl
  | true =>
      have stands := stands used
      refine ⟨talk, stands.ctrl, ?_⟩
      rintro rfl -
      have intact := intact_run (p := p) sensitivity saved polls i used
      have unrefused := stands.candid (settled_run (p := p) sensitivity saved polls i used).1
      have stream : bytes = (queuedData (deeds log)).flatten :=
        intact.stream.trans (queuedBytes_eq unrefused).1
      rw [stream]
      cases stands.course with
      | listens ctrl phase idle silent waits => exact Or.inl (by rw [silent]; rfl)
      | hangsUp ctrl closing silent => exact Or.inl (by rw [silent]; rfl)
      | replied ctrl closing req body w said answered =>
          refine Or.inr ⟨closing, req, body, said, ?_⟩
          rw [answered]
          exact replies_bytes p.toOutside w req body

end SpnavBridge.Daemon
