import RunWatch.Api.Address
import RunWatch.Fault
namespace RunWatch.Api

inductive Method where
  | get | post
deriving DecidableEq

def Method.name : Method → String
  | .get => "GET"
  | .post => "POST"

structure Request where
  method : Method
  address : Address
deriving DecidableEq

def Request.line (r : Request) : String := r.method.name ++ " " ++ r.address.target

structure Response where
  code : Nat
  phrase : String
  body : ByteArray

def Response.content (r : Response) : ByteArray := if r.code = 204 then .empty else r.body

abbrev Network := Request → Except RequestFault Response

structure Call (α : Type) where
  request : Request
  meaning : Response → Except Fault α

def Call.bind (c : Call α) (next : α → Except Fault β) : Call β :=
  ⟨c.request,fun response => (c.meaning response).bind next⟩

def Call.map (c : Call α) (f : α → β) : Call β := c.bind fun a => .ok (f a)

def deliver (network : Network) (r : Request) : Except RequestFault Response := do
  let response ← network r
  if 400 ≤ response.code ∧ response.code < 600
  then .error (.status response.code response.phrase r.address.text)
  else .ok response

def Call.answer (c : Call α) (network : Network) : Except Fault α :=
  match deliver network c.request with
  | .ok response => c.meaning response
  | .error fault => .error (.request fault)

def unreachable : Network := fun r => .error (.unsent r.address.text)

end RunWatch.Api
