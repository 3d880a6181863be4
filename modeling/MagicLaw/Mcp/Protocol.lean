import MagicLaw.Lib.Json

/-!
# The messages of JSON-RPC

`adapters/mcp/protocol.rs`.  A message is a request, or else a notification:
`JsonRpcMessage` is untagged, so `serde` tries the two in this order, on an
object by the names of the fields and on an array by their places.

An object keeps its fields as they are written.  A field of the record that is
written twice is an error, and any other field is ignored; so an `id` that is
written twice makes a notification of a request.
-/

namespace MagicLaw.Mcp

open Lib

/-! ## What a client sends -/

/-- The field of a record, which may be missing. -/
def uniqueField? (value : Json) (i : Nat) (name : String) : Option (Option Json) :=
  match value with
  | .obj fields =>
    match fields.filter (·.1 = name) with
    | [] => some none
    | [(_, field)] => some (some field)
    | _ => none
  | .arr elements => some elements[i]?
  | _ => none

/-- A field without a default. -/
def requiredField? (value : Json) (i : Nat) (name : String) : Option Json :=
  (uniqueField? value i name).join

/-- An optional value: `null` is none. -/
def optional : Json → Option Json
  | .null => none
  | value => some value

structure JsonRpcRequest where
  jsonrpc : String
  id : Json
  method : String
  params : Option Json

structure JsonRpcNotification where
  jsonrpc : String
  method : String
  params : Option Json

inductive JsonRpcMessage where
  | request (req : JsonRpcRequest)
  | notification (notif : JsonRpcNotification)

def JsonRpcRequest.ofJson (value : Json) : Option JsonRpcRequest := do
  guard (value.isRecord 4)
  let jsonrpc ← (requiredField? value 0 "jsonrpc").bind Json.asStr?
  let id ← requiredField? value 1 "id"
  let method ← (requiredField? value 2 "method").bind Json.asStr?
  let params ← uniqueField? value 3 "params"
  return ⟨jsonrpc, id, method, params.bind optional⟩

def JsonRpcNotification.ofJson (value : Json) : Option JsonRpcNotification := do
  guard (value.isRecord 3)
  let jsonrpc ← (requiredField? value 0 "jsonrpc").bind Json.asStr?
  let method ← (requiredField? value 1 "method").bind Json.asStr?
  let params ← uniqueField? value 2 "params"
  return ⟨jsonrpc, method, params.bind optional⟩

def JsonRpcMessage.ofJson (value : Json) : Option JsonRpcMessage :=
  match JsonRpcRequest.ofJson value with
  | some req => some (.request req)
  | none => (JsonRpcNotification.ofJson value).map .notification

def JsonRpcMessage.request? : JsonRpcMessage → Option JsonRpcRequest
  | .request req => some req
  | .notification _ => none

/-! ## What the server answers -/

structure JsonRpcError where
  code : Int
  message : String
  data : Option Json

structure JsonRpcResponse where
  jsonrpc : String
  id : Json
  result : Option Json
  error : Option JsonRpcError

def JsonRpcResponse.success (id result : Json) : JsonRpcResponse := ⟨"2.0", id, some result, none⟩

def JsonRpcResponse.errorResponse (id : Json) (code : Int) (message : String) : JsonRpcResponse :=
  ⟨"2.0", id, none, some ⟨code, message, none⟩⟩

def methodNotFound : Int := -32601

def invalidParams : Int := -32602

/-- A field that is left out when it is none. -/
def someField (name : String) (value : Option Json) : List (String × Json) :=
  (value.map fun field => (name, field)).toList

def JsonRpcError.toJson (error : JsonRpcError) : Json :=
  .obj ([("code", .int error.code), ("message", .str error.message)] ++ someField "data" error.data)

def JsonRpcResponse.toJson (response : JsonRpcResponse) : Json :=
  .obj ([("jsonrpc", .str response.jsonrpc), ("id", response.id)] ++
    someField "result" response.result ++
    someField "error" (response.error.map JsonRpcError.toJson))

/-! ## The methods -/

def methodInitialize : String := "initialize"

def methodNotificationsInitialized : String := "notifications/initialized"

def methodToolsList : String := "tools/list"

def methodToolsCall : String := "tools/call"

end MagicLaw.Mcp
