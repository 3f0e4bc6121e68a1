/-!
# Messages

A request as it arrives and an answer as it leaves. The body of a request is a row of bytes, for it
may be anything; what is answered is text. The names of header fields are compared without regard to
case, methods with regard to it.
-/

namespace CacheAside.Http

/-- The fields of a header in the order in which they stand. -/
abbrev Fields := List (String × String)

structure Request where
  method : String
  /-- What stands for the resource in the request line. -/
  target : String
  fields : Fields := []
  body : List UInt8 := []
  deriving DecidableEq, Repr

structure Response where
  code : Nat
  fields : Fields := []
  body : String := ""
  deriving DecidableEq, Repr

/-- A name in lower case. -/
def lower (s : String) : String := String.ofList (s.toList.map Char.toLower)

/-- The value of the first field of the given name, which is in lower case. -/
def Request.field? (r : Request) (name : String) : Option String :=
  (r.fields.find? fun f => lower f.1 = name).map Prod.snd

namespace Response

/-- An answer that carries a JSON text. -/
def json (code : Nat) (body : String) : Response :=
  { code, fields := [("content-type", "application/json")], body }

def withFields (r : Response) (fields : Fields) : Response :=
  { r with fields := r.fields ++ fields }

def withoutBody (r : Response) : Response := { r with body := "" }

end Response

end CacheAside.Http
