import Mathlib.Data.Nat.Notation

namespace SpannerClient.Protobuf

structure Any where
  typeUrl : String
  value : List UInt8
  deriving DecidableEq, Repr

structure RpcStatus where
  code : Int
  message : String
  deriving DecidableEq, Repr

inductive OperationResult
  | notSet
  | error (error : RpcStatus)
  | response (response : Any)
  deriving DecidableEq, Repr

structure Operation where
  name : String
  metadata : Option Any
  done : Bool
  result : OperationResult
  deriving DecidableEq, Repr

namespace Operation

def getError (operation : Operation) : Option RpcStatus :=
  match operation.result with
  | .error error => some error
  | .notSet | .response _ => none

def getResponse (operation : Operation) : Option Any :=
  match operation.result with
  | .response response => some response
  | .notSet | .error _ => none

end Operation

end SpannerClient.Protobuf
