import GreenticOperator.Lib.Json

/-!
# HTTP responses

`src/http_util.rs`. The JSON responses that the handlers share.
-/

namespace HttpUtil

open Json

structure HttpResponse where
  status : Nat
  contentType : String
  body : Value

def jsonResponse (status : Nat) (value : Value) : HttpResponse where
  status := status
  contentType := "application/json"
  body := value

def errorResponse (status : Nat) (message : String) : HttpResponse :=
  jsonResponse status (.ofFields [("success", .bool false), ("message", .string message)])

end HttpUtil
