import Reconciler.Text.Utf8

/-! HTTP exchanges as values: a request, and what comes back for it. -/
namespace Reconciler

inductive Method
  | get
  | put
  | post
  | delete
deriving DecidableEq

namespace Method

def name : Method → String
  | .get => "GET"
  | .put => "PUT"
  | .post => "POST"
  | .delete => "DELETE"

/-- Whether the method changes the server, and so belongs to the serialized writes. -/
def isMutating : Method → Bool
  | .get => false
  | _ => true

end Method

structure Request where
  method : Method
  url : String
  headers : List (String × String)
  body : Option (List UInt8)
deriving DecidableEq

namespace Request

def header? (r : Request) (name : String) : Option String :=
  (r.headers.find? fun h => h.1.map Char.toLower == name.map Char.toLower).map Prod.snd

def bodyText (r : Request) : String := (r.body.map Utf8.decodeLossy).getD ""

end Request

structure Response where
  status : UInt16
  body : List UInt8
deriving DecidableEq

def Response.bodyText (r : Response) : String := Utf8.decodeLossy r.body

/-- What a request leads to: a response read in full, or a connection lost for some reason. -/
inductive Reply
  | response (r : Response)
  | lost (reason : String)
deriving DecidableEq

end Reconciler
