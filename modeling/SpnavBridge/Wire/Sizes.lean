/-
# Wire.Sizes -- how long the text of a message is

`print_number` writes from a buffer of 26 bytes, and a message type as one digit
(`PrintsNumbers`).  The text of an answer is then its identifier and a constant, and the
text of an RPC is its value and a constant (`printed_callresult`, `printed_callerror`,
`printed_rpc`).
-/
import SpnavBridge.Wire.Wamp

namespace SpnavBridge.Wire

open SpnavBridge.Theory

set_option autoImplicit false

section Sizes

variable {D F : Type} [CDouble D F]

/-- How `print_number` writes: from its buffer, and a message type as one digit. -/
structure PrintsNumbers (lib : CJson D) : Prop where
  buffered : ∀ d : D, (lib.printNumber d).length ≤ 25
  digit : ∀ type : Int, 0 ≤ type → type ≤ 9 →
    (lib.printNumber (CDouble.lit (type : ℚ))).length = 1

variable {lib : CJson D}

/-- An array of numbers takes 26 bytes for each at most. -/
theorem printArray_length_le (prints : PrintsNumbers lib) (values : List D) :
    (printArray lib.printNumber (values.map .number)).length ≤ 26 * values.length := by
  induction values with
  | nil => exact le_refl _
  | cons value rest ih =>
      have first := prints.buffered value
      rw [List.map_cons, printArray]
      split
      · simp only [printValue, List.length_append, List.length_nil, List.length_cons]
        omega
      · simp only [printValue, List.length_append, List.length_cons]
        omega

/-! ## Answers -/

theorem printed_callresult (prints : PrintsNumbers lib) (callId : CStr)
    (result : Option (Json D)) :
    (lib.printUnformatted (Message.callresult callId result).tree).length =
      5 + (printString callId).length + (lib.printUnformatted (result.getD .null)).length := by
  have type := prints.digit wampCallresult (by decide) (by decide)
  simp only [CJson.printUnformatted, Message.tree, wampBuildCallresult, createNumber, printValue,
    printArray, List.isEmpty_cons, List.isEmpty_nil, if_true, if_false, Bool.false_eq_true,
    List.length_append, List.length_cons, List.length_nil, type]
  omega

theorem printed_callerror (prints : PrintsNumbers lib) (callId errorUri desc : CStr) :
    (lib.printUnformatted (Message.callerror callId errorUri desc).tree).length =
      11 + (printString callId).length + (printString errorUri).length +
        (printString desc).length := by
  have type := prints.digit wampCallerror (by decide) (by decide)
  have null : (ascii "null").length = 4 := by decide +kernel
  simp only [CJson.printUnformatted, Message.tree, wampBuildCallerror, createNumber, printValue,
    printArray, List.isEmpty_cons, List.isEmpty_nil, if_true, if_false, Bool.false_eq_true,
    List.length_append, List.length_cons, List.length_nil, type, null]
  omega

/-! ## RPCs -/

/-- The text of an RPC, apart from its value. -/
def rpcRoom (rpc : Rpc D) : Nat :=
  14 + (printString rpc.controllerUri).length + (printString rpc.callId).length +
    (printString rpc.kind).length + (printString rpc.prop).length

theorem printed_rpc (prints : PrintsNumbers lib) (rpc : Rpc D) :
    (lib.printUnformatted (Message.rpcCall rpc).tree).length =
      rpcRoom rpc + match rpc.value with
        | none => 0
        | some value => 1 + (lib.printUnformatted value).length := by
  have event := prints.digit wampEvent (by decide) (by decide)
  have call := prints.digit wampCall (by decide) (by decide)
  have unnamed : (printString .empty).length = 2 := by decide +kernel
  cases value : rpc.value with
  | none =>
      simp only [CJson.printUnformatted, Message.tree, wampBuildRpcCall, createNumber, printValue,
        printArray, value, Option.toList_none, List.append_nil, List.isEmpty_cons,
        List.isEmpty_nil, if_true, if_false, Bool.false_eq_true, List.length_append,
        List.length_cons, List.length_nil, event, call, unnamed, rpcRoom]
      omega
  | some value' =>
      simp only [CJson.printUnformatted, Message.tree, wampBuildRpcCall, createNumber, printValue,
        printArray, value, Option.toList_some, List.cons_append, List.nil_append,
        List.isEmpty_cons, List.isEmpty_nil, if_true, if_false, Bool.false_eq_true,
        List.length_append, List.length_cons, List.length_nil, event, call, unnamed, rpcRoom]
      omega

/-- An identifier has nothing to escape. -/
theorem escaped_idChar (b : UInt8) : escaped (idChar b) = [idChar b] := by
  have all : ∀ i, i < 36 → escaped (alphabet.getD i 65) = [alphabet.getD i 65] := by
    decide +kernel
  exact all _ (Nat.mod_lt _ (by decide))

theorem printString_wampGenId (rnd : Nat → UInt8) {len : Nat} (short : len ≤ 32) :
    (printString (wampGenId rnd len)).length = len + 2 := by
  have plain : (wampGenId rnd len).bytes.flatMap escaped = (wampGenId rnd len).bytes := by
    show ((List.range (min len 32)).map fun i => idChar (rnd i)).flatMap escaped = _
    rw [List.flatMap_map]
    simp only [escaped_idChar]
    rw [← List.map_eq_flatMap]
    rfl
  have size := wampGenId_length rnd short
  rw [CStr.length] at size
  rw [printString, plain]
  simp only [List.length_cons, List.length_append, List.length_nil, size]

end Sizes

end SpnavBridge.Wire
