/-
# Wire.Wamp -- the WAMP v1 messages of wamp.c

Each builder gives the cJSON tree that `finish` prints; the text itself is the
printer's business.  An identifier is drawn from the bytes `RAND_bytes` left in
`rnd`, and has no NUL because the alphabet has none.
-/
import SpnavBridge.Theory.CNumber
import SpnavBridge.Wire.Json

namespace SpnavBridge.Wire

open SpnavBridge.Theory

set_option autoImplicit false

/-! ## Message types -/

def wampWelcome : Int := 0
def wampPrefix : Int := 1
def wampCall : Int := 2
def wampCallresult : Int := 3
def wampCallerror : Int := 4
def wampSubscribe : Int := 5
def wampEvent : Int := 8

/-! ## Identifiers -/

/-- The characters of an identifier. -/
def alphabet : List UInt8 := ascii "ABCDEFGHIJKLMNOPQRSTUVWXYZ0123456789"

/-- `alphabet[b % (sizeof alphabet - 1)]` -/
def idChar (b : UInt8) : UInt8 := alphabet.getD (b.toNat % 36) 65

theorem idChar_ne_zero (b : UInt8) : idChar b ≠ 0 := by
  have all : ∀ i, i < 36 → alphabet.getD i 65 ≠ 0 := by decide
  exact all _ (Nat.mod_lt _ (by decide))

/-- `wamp_gen_id`, on the bytes `rnd` that `RAND_bytes` delivered.  The buffer has 32. -/
def wampGenId (rnd : Nat → UInt8) (len : Nat) : CStr where
  bytes := (List.range (min len 32)).map fun i => idChar (rnd i)
  noNul := by
    simp only [List.mem_map, not_exists, not_and]
    intro i _
    exact idChar_ne_zero (rnd i)

@[simp] theorem wampGenId_length (rnd : Nat → UInt8) {len : Nat} (short : len ≤ 32) :
    (wampGenId rnd len).length = len := by
  simp [wampGenId, CStr.length, short]

/-! ## Builders -/

section Builders

variable {D F : Type} [CDouble D F]

/-- `cJSON_CreateNumber` of an integer constant. -/
def createNumber (n : Int) : Json D := .number (CDouble.lit (n : ℚ))

/-- `[0, session_id, 1, ident]` -/
def wampBuildWelcome (sessionId ident : CStr) : Json D :=
  .array [createNumber wampWelcome, .string sessionId, createNumber 1, .string ident]

/-- `[3, call_id, result]`, with `null` for a `NULL` result. -/
def wampBuildCallresult (callId : CStr) (result : Option (Json D)) : Json D :=
  .array [createNumber wampCallresult, .string callId, result.getD .null]

/-- `[4, call_id, error_uri, desc, null]` -/
def wampBuildCallerror (callId errorUri desc : CStr) : Json D :=
  .array [createNumber wampCallerror, .string callId, .string errorUri, .string desc, .null]

/-- An RPC on the client's controller object: what `wamp_build_rpc_call` is given, and
the identifier it generated. -/
structure Rpc (D : Type) where
  controllerUri : CStr
  kind : CStr
  prop : CStr
  value : Option (Json D)
  callId : CStr

/-- `[8, controller_uri, [2, call_id, kind, "", prop, value?]]` -/
def wampBuildRpcCall (rpc : Rpc D) : Json D :=
  .array [createNumber wampEvent, .string rpc.controllerUri,
    .array ([createNumber wampCall, .string rpc.callId, .string rpc.kind, .string .empty,
      .string rpc.prop] ++ rpc.value.toList)]

/-- The messages the bridge sends. -/
inductive Message (D : Type) where
  | welcome (sessionId ident : CStr)
  | callresult (callId : CStr) (result : Option (Json D))
  | callerror (callId errorUri desc : CStr)
  | rpcCall (rpc : Rpc D)

/-- The tree `finish` prints for a message. -/
def Message.tree : Message D → Json D
  | .welcome sessionId ident => wampBuildWelcome sessionId ident
  | .callresult callId result => wampBuildCallresult callId result
  | .callerror callId errorUri desc => wampBuildCallerror callId errorUri desc
  | .rpcCall rpc => wampBuildRpcCall rpc

end Builders

variable {D : Type}

def Message.rpc? : Message D → Option (Rpc D)
  | .rpcCall rpc => some rpc
  | _ => none

/-- The EVENT-wrapped RPCs among the messages sent. -/
def rpcs (sent : List (Message D)) : List (Rpc D) := sent.filterMap Message.rpc?

@[simp] theorem rpcs_nil : rpcs ([] : List (Message D)) = [] := rfl

@[simp] theorem rpcs_rpcCall (rpc : Rpc D) : rpcs [.rpcCall rpc] = [rpc] := rfl

end SpnavBridge.Wire
