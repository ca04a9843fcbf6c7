import ZcashSoloPool.JavaScript.Json
import Mathlib.Data.List.Infix

/-!
# Calls of the node

One JSON-RPC request: what the HTTP client comes back with, and what `call`
makes of it.  An error of the node arrives in a reply or with a failed request;
it is thrown on with its text and the node's own error value.
-/

namespace ZcashSoloPool.Rpc

open ZcashSoloPool.JavaScript

/-- The reply that came with a failed request, with its decoded body. -/
structure HttpResponse where
  status : Nat
  data : Json

/-- What `axios.post` comes back with: the decoded body of a reply with a status
of success, where text that is no JSON stays text, or the message of an error
and the reply that came with it, if any did. -/
inductive HttpOutcome where
  | reply (data : Json)
  | failure (message : Text) (response : Option HttpResponse)

/-- The node and the network between: the outcome of a request by its method and
its parameters. -/
abbrev Node :=
  Text → List Json → HttpOutcome

/-- A thrown error: its message and its member `rpc`. -/
structure RpcError where
  message : Text
  rpc : Option Json

/-- The error for an object whose conversion throws. -/
def conversionError : RpcError :=
  ⟨"Cannot convert object to primitive value".toList, none⟩

/-- `new Error(rpcError.message || fallback)`, with `none` where the conversion
of the message throws. -/
def errorMessage (numbers : NumberFormat) (rpcError : Json) (fallback : Text) : Option Text :=
  match rpcError.member "message" with
  | some message => if message.truthy then message.toText? numbers else some fallback
  | none => some fallback

/-- An error of the node is logged with its code and thrown; the template that
writes the code may throw first. -/
def logAndThrow (numbers : NumberFormat) (message : Text) (rpcError : Json) : RpcError :=
  match rpcError.member "code" with
  | some code => if (code.toText? numbers).isSome then ⟨message, some rpcError⟩ else conversionError
  | none => ⟨message, some rpcError⟩

/-- The error for a request that the node did not answer with an error. -/
def failed (method status message : Text) : RpcError :=
  ⟨"RPC ".toList ++ method ++ " Failed: ".toList ++ status ++ " - ".toList ++ message, none⟩

/-- `data && data.error`, where it counts as true. -/
def errorMember (data : Json) : Option Json :=
  (data.member "error").filter Json.truthy

/-- `typeof _ === "object"`, for a value that is not null. -/
def isObject : Json → Bool
  | .array _ => true
  | .object _ => true
  | _ => false

/-- The error object in the body of a failed request. -/
def responseError (response : Option HttpResponse) : Option Json :=
  (response.bind fun reply => errorMember reply.data).filter isObject

/-- The status that the message of a failed request names. -/
def statusText : Option HttpResponse → Text
  | some response => integerText response.status
  | none => "Network Error".toList

/-- `call`, from the moment the request has come back; `none` is the source's
`undefined`. -/
def call (numbers : NumberFormat) (node : Node) (method : Text) (params : List Json) :
    Except RpcError (Option Json) :=
  match node method params with
  | .reply data =>
      match errorMember data with
      | some rpcError =>
          match errorMessage numbers rpcError "RPC error".toList with
          | some message => .error (logAndThrow numbers message rpcError)
          -- The constructor threw inside the `try`, and its error carries no `rpc`.
          | none =>
              .error (failed method "Network Error".toList conversionError.message)
      | none =>
          if data.isNull then
            .error (failed method "Network Error".toList
              "Cannot read properties of null (reading 'result')".toList)
          else .ok (data.member "result")
  | .failure message response =>
      match responseError response with
      | some rpcError =>
          let fallback := if message.isEmpty then "RPC error".toList else message
          match errorMessage numbers rpcError fallback with
          | some text => .error (logAndThrow numbers text rpcError)
          | none => .error conversionError
      | none => .error (failed method (statusText response) message)

/-! ## Errors by their text and code -/

/-- `toLowerCase`, on the characters whose lower-case form has an ASCII
letter. -/
def lowerCase (text : Text) : Text :=
  text.flatMap fun c =>
    if c = '\u212a' then ['k'] else if c = '\u0130' then ['i', '\u0307'] else [c.toLower]

/-- `text.includes(part)`. -/
def includes (text : Text) (part : String) : Bool :=
  decide (part.toList <:+: text)

/-- The text that an error is told by. -/
def RpcError.lowerMessage (error : RpcError) : Text :=
  lowerCase error.message

/-- `error.rpc.code === code`. -/
def RpcError.hasCode (error : RpcError) (code : Int) : Bool :=
  match error.rpc.bind (Json.member "code") with
  | some (.number value) => decide (value = code)
  | _ => false

/-! ## Results -/

/-- A result is returned exactly for a reply that is not null and holds no error
that counts as true. -/
theorem call_eq_ok_iff {numbers : NumberFormat} {node : Node} {method : Text}
    {params : List Json} {result : Option Json} :
    call numbers node method params = .ok result ↔
      ∃ data, node method params = .reply data ∧ errorMember data = none ∧
        data.isNull = false ∧ result = data.member "result" := by
  unfold call
  cases node method params with
  | reply data =>
      dsimp only
      cases noError : errorMember data with
      | some rpcError =>
          dsimp only
          constructor
          · intro returned
            split at returned
            · contradiction
            · contradiction
          · rintro ⟨_, ⟨⟩, clean, -⟩
            rw [noError] at clean
            contradiction
      | none =>
          dsimp only
          constructor
          · intro returned
            split at returned
            · contradiction
            · next notNull =>
                cases returned
                exact ⟨data, rfl, noError, Bool.eq_false_of_not_eq_true notNull, rfl⟩
          · rintro ⟨_, ⟨⟩, -, notNull, rfl⟩
            rw [if_neg (Bool.not_eq_true _ ▸ notNull)]
  | failure message response =>
      dsimp only
      constructor
      · intro returned
        split at returned
        · split at returned
          · contradiction
          · contradiction
        · contradiction
      · rintro ⟨_, ⟨⟩, -⟩

end ZcashSoloPool.Rpc
