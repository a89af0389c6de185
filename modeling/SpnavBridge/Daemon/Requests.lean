/-
# Daemon.Requests -- how main.c answers the HTTP request of a connection

A handler is given what the connections share (`World`) and the request, and gives back
the world, what became of the connection, and what it did (`Act`), oldest first.  Nothing
here looks at the output queue, so queueing is an act like the others and the queue is
modelled where it is kept.

`Outside` is what the process gets from elsewhere and a result holds for any choice of:
cJSON, SHA-1 with base64, `%g`, whether the state directory can be written, and what the
controllers read from the clock and `RAND_bytes`, call by call.
-/
import SpnavBridge.Kernel.Gate
import SpnavBridge.Wire.Http
import SpnavBridge.Wire.Ws

namespace SpnavBridge.Daemon

open SpnavBridge.Theory SpnavBridge.Wire SpnavBridge.Kernel

set_option autoImplicit false

/-! ## Limits -/

def bufSize : Nat := 64 * 1024
def msgBufSize : Nat := 1024 * 1024
/-- Room for the largest message and the largest masked frame header. -/
def inputBufSize : Nat := msgBufSize + 14
def bodyMax : Nat := 8192

/-! ## Data -/

structure Outside (D : Type) where
  lib : CJson D
  /-- the base64 text of a SHA-1 -/
  digest : CStr → CBuf 28
  /-- `%g` -/
  printG : D → CStr
  /-- `sensitivity.conf` can be opened for writing. -/
  savable : Bool
  envs : Nat → Env

/-- What all connections share. -/
structure World (F : Type) where
  sensitivity : F
  /-- the controllers of the other connections -/
  others : List (Controller F)
  /-- the text of `sensitivity.conf` -/
  saved : Option CStr
  /-- the calls of controllers made so far -/
  calls : Nat

/-- What handling a request or a frame does. -/
inductive Act (F : Type) where
  | request (req : HttpRequest) (body : List UInt8)
  | message (payload : List UInt8) (rc : Int)
  | queue (data : List UInt8)
  /-- `client_send` has a message that fits no frame -/
  | reject
  | assign (sensitivity : F)
  | readOut

variable {D F : Type} [CFloat F] [CDouble D F]

/-! ## Output -/

def clientSend (o : Outside D) (m : Message D) : Act F :=
  match wsEncodeFrame bufSize wsOpText (o.lib.printUnformatted m.tree) with
  | some frame => .queue frame
  | none => .reject

/-- A number in decimal. -/
def decimal (n : Nat) : List UInt8 := ascii (toString n)

/-- The header block of a response. -/
def responseHeader (status : Nat) (statusText extraHeaders body : CStr) : List UInt8 :=
  ascii "HTTP/1.1 " ++ decimal status ++ ascii " " ++ statusText.bytes ++
    ascii "\r\nContent-Length: " ++ decimal body.length ++ ascii "\r\n" ++
    extraHeaders.bytes ++ ascii "Connection: close\r\n\r\n"

def sendHttpResponse (status : Nat) (statusText extraHeaders body : CStr) : List (Act F) :=
  .queue (responseHeader status statusText extraHeaders body) ::
    if body = .empty then [] else [.queue body.bytes]

/-! ## The upgrade -/

def switchingProtocols (accept : CBuf 28) : List UInt8 :=
  ascii "HTTP/1.1 101 Switching Protocols\r\nUpgrade: websocket\r\nConnection: Upgrade\r\n" ++
    ascii "Sec-WebSocket-Accept: " ++ accept.str.bytes ++
    ascii "\r\nSec-WebSocket-Protocol: wamp\r\nAccess-Control-Allow-Private-Network: true\r\n\r\n"

/-- `handle_ws_upgrade`, with the new controller when there is one. -/
def handleWsUpgrade (o : Outside D) (w : World F) (req : HttpRequest) :
    World F × Option (Controller F) × List (Act F) :=
  if !originAllowed req.origin.str then
    (w, none, sendHttpResponse 403 (.lit "Forbidden") .empty (.lit "origin not allowed"))
  else
    let accept :=
      if req.wsKey.str = .empty then none else wsComputeAccept o.digest req.wsKey.str
    match accept with
    | none =>
        (w, none,
          sendHttpResponse 400 (.lit "Bad Request") .empty (.lit "missing Sec-WebSocket-Key"))
    | some accept =>
        let created := controllerCreate (D := D) (F := F) (o.envs w.calls)
        ({ w with calls := w.calls + 1 },
          some (controllerSetSensitivity created.1 w.sensitivity).1,
          .queue (switchingProtocols accept) :: created.2.map (clientSend o))

/-! ## Plain requests -/

/-- `append_cors_header` to a `char hdr[512]`. -/
def appendCorsHeader (req : HttpRequest) (hdr : CBuf 511) : CBuf 511 :=
  if originAllowed req.origin.str then
    .printf 511 (hdr.str.append ((CStr.lit "Access-Control-Allow-Origin: ").append
      (req.origin.str.append
        (.lit "\r\nAccess-Control-Allow-Private-Network: true\r\n"))))
  else hdr

def jsonHeader : CBuf 511 := .printf 511 (.lit "Content-Type: application/json\r\n")

/-- The number a POST asks for, when it is one the bridge takes. -/
def requestedSensitivity (o : Outside D) (body : List UInt8) : Option F :=
  match o.lib.parseWithLength body with
  | some (.object members) =>
      match Json.getObjectItem members (.lit "sensitivity") with
      | some (.number d) =>
          if !CFloat.isfinite (CDouble.narrow d) || CDouble.lt d (CDouble.lit (1 / 100))
              || CDouble.lt (CDouble.lit 10) d then none
          else some (CDouble.narrow d)
      | _ => none
  | _ => none

def savePersistedSensitivity (o : Outside D) (w : World F) (value : F) : World F :=
  if o.savable then
    { w with saved := some ((o.printG (CDouble.widen value)).append (.lit "\n")) }
  else w

/-- `g_sensitivity = value`, told to every controller and saved.  This connection has no
controller yet. -/
def applySensitivity (o : Outside D) (w : World F) (value : F) : World F :=
  savePersistedSensitivity o { w with
    sensitivity := value
    others := w.others.map fun c => (controllerSetSensitivity c value).1 } value

/-- The 200 that tells `g_sensitivity`. -/
def reportSensitivity (o : Outside D) (w : World F) (hdr : CBuf 511) : List (Act F) :=
  let respbody : CBuf 63 := .printf 63 ((CStr.lit "\x7b\"sensitivity\": ").append
    ((o.printG (CDouble.widen w.sensitivity)).append (.lit "\x7d")))
  .readOut :: sendHttpResponse 200 (.lit "OK") hdr.str respbody.str

def handleSensitivityRequest (o : Outside D) (w : World F) (req : HttpRequest)
    (body : List UInt8) : World F × List (Act F) :=
  if !originAllowed req.origin.str then
    (w, sendHttpResponse 403 (.lit "Forbidden") .empty (.lit "origin not allowed"))
  else
    let hdr := appendCorsHeader req jsonHeader
    if req.method.str = .lit "POST" then
      match requestedSensitivity o body with
      | none =>
          (w, sendHttpResponse 400 (.lit "Bad Request") hdr.str
            (.lit "\x7b\"error\":\"sensitivity must be a number from 0.01 to 10\"\x7d"))
      | some value =>
          let w := applySensitivity o w value
          (w, .assign value :: reportSensitivity o w hdr)
    else if req.method.str ≠ .lit "GET" then
      (w, sendHttpResponse 405 (.lit "Method Not Allowed") hdr.str .empty)
    else (w, reportSensitivity o w hdr)

def handleOptions (req : HttpRequest) : List (Act F) :=
  let hdr := appendCorsHeader req (.zeroed 511)
  let hdr : CBuf 511 := .printf 511 (hdr.str.append
    (.lit ("Access-Control-Allow-Methods: GET, POST, OPTIONS\r\n" ++
      "Access-Control-Allow-Headers: *\r\n")))
  sendHttpResponse 204 (.lit "No Content") hdr.str .empty

/-- The port is `DEFAULT_PORT`, whatever `--port` says. -/
def handleNlproxy (req : HttpRequest) : List (Act F) :=
  sendHttpResponse 200 (.lit "OK") (appendCorsHeader req jsonHeader).str
    (.lit "\x7b\"port\": 8181, \"version\": \"1.4.8.21486\"\x7d")

/-- `handle_http_request` on a request that is no upgrade. -/
def handlePlainRequest (o : Outside D) (w : World F) (req : HttpRequest) (body : List UInt8) :
    World F × List (Act F) :=
  if req.method.str = .lit "OPTIONS" then (w, handleOptions req)
  else if req.path.str = .lit "/3dconnexion/nlproxy" then (w, handleNlproxy req)
  else if req.path.str = .lit "/spnav/sensitivity" then handleSensitivityRequest o w req body
  else (w, sendHttpResponse 404 (.lit "Not Found") .empty .empty)

/-- `handle_http_request`.  Without a new controller the connection is closing. -/
def handleHttpRequest (o : Outside D) (w : World F) (req : HttpRequest) (body : List UInt8) :
    World F × Option (Controller F) × List (Act F) :=
  if req.isWsUpgrade then handleWsUpgrade o w req
  else
    let handled := handlePlainRequest o w req body
    (handled.1, none, handled.2)

end SpnavBridge.Daemon
