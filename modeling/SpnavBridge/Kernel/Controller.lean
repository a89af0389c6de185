/-
# Kernel.Controller -- controller.c, the state machine behind one WebSocket connection

`Controller` is `struct controller` without the two fields that say where messages
go: what the source passes to `send` is returned instead, oldest first, as the
messages whose trees wamp.c prints.

What one call of the controller reads from outside is an `Env`.  No path draws more
than one identifier or reads the clock more than twice, so one buffer of random bytes
and two readings (`timeChecked` in the timeout test, `timeStarted` where a chain is
started) are all of it, and the readings may differ.
-/
import SpnavBridge.Camera.Mat4
import SpnavBridge.Theory.Machine
import SpnavBridge.Wire.Wamp

namespace SpnavBridge.Kernel

open SpnavBridge.Theory SpnavBridge.Wire SpnavBridge.Camera

set_option autoImplicit false

/-! ## Data -/

/-- What one call reads from outside: the bytes `RAND_bytes` delivers and the two
readings of `time(NULL)`. -/
structure Env where
  rnd : Nat → UInt8
  timeChecked : Int
  timeStarted : Int

inductive SbEventType where
  | motion
  | button
  deriving DecidableEq

/-- `struct sb_event`, as far as the controller reads it. -/
structure SbEvent where
  type : SbEventType
  x : Int
  y : Int
  z : Int
  rx : Int
  ry : Int
  rz : Int
  deriving DecidableEq

def controllerUri : CStr := .lit "wss://127.51.68.120/3dconnexion3dcontroller/controller0"
def updateUri : CStr := .lit "wss://127.51.68.120/3dconnexion#update"
def selfRead : CStr := .lit "self:read"
def selfUpdate : CStr := .lit "self:update"

/-- Seconds. -/
def chainTimeout : Int := 10

inductive HsState where
  | waitMouse
  | waitController
  | ready
  deriving DecidableEq

inductive ChainKind where
  | none
  | motion
  | button
  deriving DecidableEq

inductive ChainStep where
  | mstepReadExtents
  | mstepReadPerspective
  | mstepReadAffine
  | mstepReadViewextents
  | mstepWriteMotion
  | mstepWriteViewextents
  | mstepWriteAffine
  | bstepReadExtents
  | bstepReadFront
  | bstepWriteAffine
  | bstepWriteExtents
  deriving DecidableEq

def maxPrefixes : Nat := 8

/-- `struct prefix_entry` -/
structure PrefixEntry where
  name : CBuf 63
  uri : CBuf 255

/-- `prefixes[0 .. nprefixes)` -/
structure PrefixTable where
  entries : List PrefixEntry
  bounded : entries.length ≤ maxPrefixes

structure Controller (F : Type) where
  hs : HsState
  knownClient : Bool
  subscribed : Bool
  focus : Bool
  sensitivity : F
  prefixes : PrefixTable
  chain : ChainKind
  step : ChainStep
  pendingCallId : CBuf 18
  chainStarted : Int
  activeEv : SbEvent
  pendingMotion : SbEvent
  havePendingMotion : Bool
  havePendingButton : Bool
  modelExtents : Fin 6 → F
  perspective : Bool
  currAffine : Mat4 F
  newAffine : Mat4 F
  viewExtents : Fin 6 → F

variable {D F : Type} [CFloat F] [CDouble D F]

/-! ## Remote calls -/

/-- `wamp_build_rpc_call` on the controller object, keeping the identifier. -/
def rpc (e : Env) (c : Controller F) (kind prop : CStr) (value : Option (Json D)) :
    Controller F × List (Message D) :=
  let callId := wampGenId e.rnd 18
  ({ c with pendingCallId := .printf 18 callId },
    [.rpcCall { controllerUri := controllerUri, kind, prop, value, callId }])

def rpcRead (e : Env) (c : Controller F) (prop : CStr) : Controller F × List (Message D) :=
  rpc e c selfRead prop none

def rpcWrite (e : Env) (c : Controller F) (prop : CStr) (value : Option (Json D)) :
    Controller F × List (Message D) :=
  rpc e c selfUpdate prop value

/-! ## Numbers in replies -/

/-- The loop of `json_to_floats` from index `i` on.  An item that is not a number
stops it, after the items before it were stored. -/
def storeFloats {n : Nat} (i : Nat) (items : List (Json D)) (out : Fin n → F) :
    (Fin n → F) × Bool :=
  match items with
  | [] => (out, true)
  | .number d :: rest =>
      storeFloats (i + 1) rest fun k => if k.val = i then CDouble.narrow d else out k
  | _ :: _ => (out, false)

/-- `json_to_floats`: the array afterwards, and whether 0 was returned. -/
def jsonToFloats {n : Nat} (arr : Option (Json D)) (out : Fin n → F) : (Fin n → F) × Bool :=
  match arr with
  | some (.array items) =>
      if items.length < n then (out, false) else storeFloats 0 (items.take n) out
  | _ => (out, false)

def floatsToJson {n : Nat} (values : Fin n → F) : Json D :=
  .array (List.ofFn fun i => .number (CDouble.widen (values i)))

/-! ## Prefixes -/

def resolveUri (c : Controller F) (uri : CStr) : CBuf 319 :=
  match uri.cut 58 with
  | none => .printf 319 uri
  | some (front, rest) =>
      match c.prefixes.entries.find? fun entry => entry.name.str = front with
      | some entry => .printf 319 (entry.uri.str.append rest)
      | none => .printf 319 rest

/-! ## The camera -/

/-- `compute_new_affine`, on the three fields of the controller it reads. -/
def computeNewAffine (sensitivity : F) (modelExtents : Fin 6 → F) (currAffine : Mat4 F)
    (ev : SbEvent) : Mat4 F :=
  let rCam := mat4ExtractOrthonormalRotation currAffine
  let rDelta := mat3FromEulerXyzDeg
    (CFloat.ofInt ev.rx * CFloat.lit (2 / 100) * sensitivity)
    (CFloat.ofInt ev.ry * CFloat.lit (2 / 100) * sensitivity)
    (CFloat.ofInt (-ev.rz) * CFloat.lit (2 / 100) * sensitivity)
  let rCamT := mat3Transpose rCam
  let rWorld := mat3Mul (mat3Mul rCam rDelta) rCamT
  let rotDelta := mat4FromRot3 rWorld
  let transDelta := mat4FromTranslationRow
    (CFloat.ofInt (-ev.x) * CFloat.lit (5 / 10000) * sensitivity)
    (CFloat.ofInt (-ev.y) * CFloat.lit (5 / 10000) * sensitivity)
    (CFloat.ofInt ev.z * CFloat.lit (5 / 10000) * sensitivity)
  let pivot0 := (modelExtents 0 + modelExtents 3) * CFloat.lit (5 / 10)
  let pivot1 := (modelExtents 1 + modelExtents 4) * CFloat.lit (5 / 10)
  let pivot2 := (modelExtents 2 + modelExtents 5) * CFloat.lit (5 / 10)
  let pivotPos := mat4FromTranslationRow pivot0 pivot1 pivot2
  let pivotNeg := mat4FromTranslationRow (-pivot0) (-pivot1) (-pivot2)
  mat4Mul transDelta (mat4Mul currAffine (mat4Mul (mat4Mul pivotNeg rotDelta) pivotPos))

/-! ## Chains -/

def startMotionChain (e : Env) (c : Controller F) (ev : SbEvent) :
    Controller F × List (Message D) :=
  rpcRead e { c with
    activeEv := ev
    chain := .motion
    step := .mstepReadExtents
    chainStarted := e.timeStarted } (.lit "model.extents")

def startButtonChain (e : Env) (c : Controller F) : Controller F × List (Message D) :=
  rpcRead e { c with
    chain := .button
    step := .bstepReadExtents
    chainStarted := e.timeStarted } (.lit "model.extents")

def chainFinished (e : Env) (c : Controller F) : Controller F × List (Message D) :=
  let c := { c with chain := .none }
  if c.havePendingButton then
    -- a view reset supersedes queued motion
    startButtonChain e { c with havePendingButton := false, havePendingMotion := false }
  else if c.havePendingMotion then
    startMotionChain e { c with havePendingMotion := false } c.pendingMotion
  else (c, [])

def advanceMotionChain (e : Env) (c : Controller F) (result : Option (Json D)) :
    Controller F × List (Message D) :=
  match c.step with
  | .mstepReadExtents =>
      let read := jsonToFloats result c.modelExtents
      let c := { c with modelExtents := read.1 }
      if read.2 then
        rpcRead e { c with step := .mstepReadPerspective } (.lit "view.perspective")
      else chainFinished e c
  | .mstepReadPerspective =>
      let perspective := Json.isTrue result || match result with
        | some (.number d) => CDouble.nonzero d
        | _ => false
      rpcRead e { c with perspective, step := .mstepReadAffine } (.lit "view.affine")
  | .mstepReadAffine =>
      let read := jsonToFloats result c.currAffine
      let c := { c with currAffine := read.1 }
      if read.2 then
        let c := { c with
          newAffine := computeNewAffine c.sensitivity c.modelExtents c.currAffine c.activeEv }
        if !c.perspective then
          rpcRead e { c with step := .mstepReadViewextents } (.lit "view.extents")
        else
          rpcWrite e { c with step := .mstepWriteMotion } (.lit "motion") (some (.bool true))
      else chainFinished e c
  | .mstepReadViewextents =>
      let read := jsonToFloats result c.viewExtents
      let c := { c with viewExtents := read.1 }
      if read.2 then
        let scale := CFloat.lit 1 +
          CFloat.ofInt c.activeEv.z * CFloat.lit (2 / 10000) * c.sensitivity
        rpcWrite e { c with
          viewExtents := fun i => c.viewExtents i * scale
          step := .mstepWriteMotion } (.lit "motion") (some (.bool true))
      else chainFinished e c
  | .mstepWriteMotion =>
      if !c.perspective then
        rpcWrite e { c with step := .mstepWriteViewextents } (.lit "view.extents")
          (some (floatsToJson c.viewExtents))
      else
        rpcWrite e { c with step := .mstepWriteAffine } (.lit "view.affine")
          (some (floatsToJson c.newAffine))
  | .mstepWriteViewextents =>
      rpcWrite e { c with step := .mstepWriteAffine } (.lit "view.affine")
        (some (floatsToJson c.newAffine))
  | .mstepWriteAffine => chainFinished e c
  | _ => chainFinished e c

def advanceButtonChain (e : Env) (c : Controller F) (result : Option (Json D)) :
    Controller F × List (Message D) :=
  match c.step with
  | .bstepReadExtents =>
      let read := jsonToFloats result c.modelExtents
      let c := { c with modelExtents := read.1 }
      if read.2 then
        rpcRead e { c with step := .bstepReadFront } (.lit "views.front")
      else chainFinished e c
  | .bstepReadFront =>
      -- forwarded as it came; a missing result leaves the value out
      rpcWrite e { c with step := .bstepWriteAffine } (.lit "view.affine") result
  | .bstepWriteAffine =>
      let scaled : Fin 6 → F := fun i => c.modelExtents i * CFloat.lit (12 / 10)
      rpcWrite e { c with step := .bstepWriteExtents } (.lit "view.extents")
        (some (floatsToJson scaled))
  | .bstepWriteExtents => chainFinished e c
  | _ => chainFinished e c

/-! ## Life cycle -/

def defaultSensitivity : F := CFloat.lit (35 / 100)

/-- `calloc`, then the four assignments; the WELCOME message is sent at once. -/
def controllerCreate (e : Env) : Controller F × List (Message D) :=
  let zeroEvent : SbEvent := ⟨.motion, 0, 0, 0, 0, 0, 0⟩
  let zero : F := CFloat.lit 0
  ({ hs := .waitMouse
     knownClient := false
     subscribed := false
     focus := false
     sensitivity := defaultSensitivity
     prefixes := ⟨[], by simp⟩
     chain := .none
     step := .mstepReadExtents
     pendingCallId := .zeroed 18
     chainStarted := 0
     activeEv := zeroEvent
     pendingMotion := zeroEvent
     havePendingMotion := false
     havePendingButton := false
     modelExtents := fun _ => zero
     perspective := false
     currAffine := fun _ => zero
     newAffine := fun _ => zero
     viewExtents := fun _ => zero },
    [.welcome (wampGenId e.rnd 16) (.lit "spnav-onshape-bridge v0.1")])

/-- The controller afterwards, and the value returned. -/
def controllerSetSensitivity (c : Controller F) (sensitivity : F) : Controller F × Int :=
  if !CFloat.isfinite sensitivity || CFloat.lt sensitivity (CFloat.lit (1 / 100))
      || CFloat.lt (CFloat.lit 10) sensitivity then (c, -1)
  else ({ c with sensitivity }, 0)

/-! ## Incoming messages -/

/-- `json_str`: item `i`, when it is a string. -/
def jsonStr (items : List (Json D)) (i : Nat) : Option CStr := Json.stringValue items[i]?

def knownClientName (name : Option CStr) : Bool :=
  name = some (.lit "Onshape") || name = some (.lit "WebThreeJS Sample")

def onPrefix (c : Controller F) (items : List (Json D)) : Controller F :=
  match jsonStr items 1, jsonStr items 2 with
  | some name, some uri =>
      if room : c.prefixes.entries.length < maxPrefixes then
        { c with prefixes :=
          ⟨c.prefixes.entries ++ [⟨.printf 63 name, .printf 255 uri⟩],
            by rw [List.length_append, List.length_singleton]; omega⟩ }
      else c
  | _, _ => c

/-- CALL in `HS_WAIT_MOUSE`. -/
def onCreateMouse (c : Controller F) (items : List (Json D)) (callId procUri : CStr) :
    Controller F × List (Message D) × Int :=
  if procUri = .lit "3dx_rpc:create" ∧ jsonStr items 3 = some (.lit "3dconnexion:3dmouse") then
    ({ c with hs := .waitController },
      [.callresult callId (some (.object [(.lit "connexion", .string (.lit "mouse0"))]))], 0)
  else (c, [], -1)

/-- What the metadata argument of the create-controller CALL says about the client.
Without a metadata object nothing is said and the flag stays. -/
def recognise (c : Controller F) (metadata : Option (Json D)) : Bool :=
  match metadata with
  | some (.object members) =>
      knownClientName (Json.stringValue (Json.getObjectItem members (.lit "name")))
  | _ => c.knownClient

/-- CALL in `HS_WAIT_CONTROLLER`. -/
def onCreateController (c : Controller F) (items : List (Json D)) (callId procUri : CStr) :
    Controller F × List (Message D) × Int :=
  if procUri = .lit "3dx_rpc:create" ∧
      jsonStr items 3 = some (.lit "3dconnexion:3dcontroller") ∧
      jsonStr items 4 = some (.lit "mouse0") then
    ({ c with knownClient := recognise c items[5]?, hs := .ready },
      [.callresult callId (some (.object [(.lit "instance", .string (.lit "controller0"))]))], 0)
  else (c, [], -1)

/-- What the argument of the update RPC does to the focus flag. -/
def reportedFocus (c : Controller F) (arg : Option (Json D)) : Bool :=
  match arg with
  | some (.object members) =>
      match Json.getObjectItem members (.lit "focus") with
      | some focus => Json.isTrue (some focus)
      | none => c.focus
  | _ => c.focus

/-- CALL in `HS_READY`. -/
def onReadyCall (c : Controller F) (items : List (Json D)) (callId procUri : CStr) :
    Controller F × List (Message D) × Int :=
  if (resolveUri c procUri).str = updateUri then
    ({ c with focus := reportedFocus c items[3]? }, [.callresult callId none], 0)
  else
    let desc : CBuf 255 := .printf 255
      ((CStr.lit "RPC '").append (procUri.append (.lit "' not registered")))
    (c, [.callerror callId (.lit "wamp.error.not_found") desc.str], 0)

def onCall (c : Controller F) (items : List (Json D)) : Controller F × List (Message D) × Int :=
  match jsonStr items 1, jsonStr items 2 with
  | some callId, some procUri =>
      match c.hs with
      | .waitMouse => onCreateMouse c items callId procUri
      | .waitController => onCreateController c items callId procUri
      | .ready => onReadyCall c items callId procUri
  | _, _ => (c, [], -1)

def onSubscribe (c : Controller F) (items : List (Json D)) : Controller F :=
  match jsonStr items 1 with
  | some topic =>
      if (resolveUri c topic).str = controllerUri then { c with subscribed := true, focus := true }
      else c
  | none => c

/-- CALLRESULT and CALLERROR: only the outstanding identifier is looked at. -/
def onReply (e : Env) (c : Controller F) (type : Int) (items : List (Json D)) :
    Controller F × List (Message D) :=
  if c.chain ≠ .none ∧ jsonStr items 1 = some c.pendingCallId.str then
    if type = wampCallerror then chainFinished e c
    else if c.chain = .motion then advanceMotionChain e c items[2]?
    else advanceButtonChain e c items[2]?
  else (c, [])

/-- The `switch` on the message type, over the items of the array. -/
def dispatch (e : Env) (c : Controller F) (type : Int) (items : List (Json D)) :
    Controller F × List (Message D) × Int :=
  if type = wampPrefix then (onPrefix c items, [], 0)
  else if type = wampCall then onCall c items
  else if type = wampSubscribe then (onSubscribe c items, [], 0)
  else if type = wampCallresult ∨ type = wampCallerror then
    let answered := onReply e c type items
    (answered.1, answered.2, 0)
  else (c, [], 0)

/-- The items and the message type of a payload that is an array whose first item is
a number. -/
def messageOf (json : Option (Json D)) : Option (Int × List (Json D)) :=
  match json with
  | some (.array (.number t :: rest)) => some (CDouble.toInt t, .number t :: rest)
  | _ => none

def controllerOnMessage (lib : CJson D) (e : Env) (c : Controller F) (json : List UInt8) :
    Controller F × List (Message D) × Int :=
  match messageOf (lib.parseWithLength json) with
  | some (type, items) => dispatch e c type items
  | none => (c, [], -1)

/-! ## Device events -/

def controllerOnSpnavEvent (e : Env) (c : Controller F) (ev : SbEvent) :
    Controller F × List (Message D) :=
  if c.hs ≠ .ready ∨ !c.knownClient ∨ !c.subscribed ∨ !c.focus then (c, [])
  else
    let c :=
      if c.chain ≠ .none ∧ e.timeChecked - c.chainStarted ≥ chainTimeout then
        -- the chain is abandoned, with what was queued behind it
        { c with chain := .none, havePendingMotion := false, havePendingButton := false }
      else c
    if c.chain ≠ .none then
      if ev.type = .motion then ({ c with pendingMotion := ev, havePendingMotion := true }, [])
      else ({ c with havePendingButton := true }, [])
    else if ev.type = .motion then startMotionChain e c ev
    else startButtonChain e c

/-! ## Runs -/

/-- The calls a controller receives. -/
inductive Op (F : Type) where
  | message (json : List UInt8)
  | spnav (ev : SbEvent)
  | setSensitivity (sensitivity : F)

/-- One call: the operation, and what it reads from outside. -/
structure Call (F : Type) where
  op : Op F
  env : Env

/-- What a call returned and what it handed to `send`, oldest first. -/
structure Answer (D : Type) where
  rc : Int
  sent : List (Message D)

def controllerStep (lib : CJson D) (c : Controller F) (call : Call F) :
    Controller F × Answer D :=
  match call.op with
  | .message json =>
      let done := controllerOnMessage lib call.env c json
      (done.1, ⟨done.2.2, done.2.1⟩)
  | .spnav ev =>
      let done := controllerOnSpnavEvent call.env c ev
      (done.1, ⟨0, done.2⟩)
  | .setSensitivity sensitivity =>
      let done := controllerSetSensitivity c sensitivity
      (done.1, ⟨done.2, []⟩)

/-- The life of one controller, from `controller_create` on. -/
def controllerMachine (lib : CJson D) (e : Env) : Machine (Controller F) (Call F) (Answer D) where
  init := (controllerCreate (D := D) e).1
  step := controllerStep lib

end SpnavBridge.Kernel
