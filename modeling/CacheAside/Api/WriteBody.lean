import CacheAside.Basic
import CacheAside.Json.Reader

/-!
# The body of a write request

A write is sent as a JSON object with the members `key` and `value`, or as an array that holds
the key and the value in this order. Either part may be missing; a value may also be `null`. Other
members are skipped, whatever they hold. A part of another type, a second `key` or `value` and a
third array element are refused, and so is everything that is not JSON.

`WriteBody.read?` gives the body and the text after it. Where the whole text has to be the body,
`WriteBody.ofWhole?` allows nothing but blanks to follow; `WriteBody.ofFirst?` takes the first value
and leaves the rest unread.
-/

namespace CacheAside

open Json

/-- A decoded write. A missing key is the empty key. -/
structure WriteBody where
  key : Key := ""
  value : Option Value := none
  deriving DecidableEq, Repr

namespace WriteBody

/-- The members met so far. -/
structure Found where
  key : Option Key := none
  value : Option (Option Value) := none

def Found.body (f : Found) : WriteBody := ⟨f.key.getD "", f.value.join⟩

/-- A value: a text, or none for `null`. -/
def value? : List Symbol → Option (Option Value × List Symbol)
  | some 'n' :: some 'u' :: some 'l' :: some 'l' :: rest => some (none, rest)
  | input => (text? input).map fun (s, rest) => (some s, rest)

/-- Reads what belongs to the member `name`. -/
def field? (name : String) (f : Found) (input : List Symbol) : Option (Found × List Symbol) :=
  let input := skipBlanks input
  if name = "key" then
    if f.key.isSome then none
    else (text? input).map fun (key, rest) => ({ f with key := some key }, rest)
  else if name = "value" then
    if f.value.isSome then none
    else (value? input).map fun (value, rest) => ({ f with value := some value }, rest)
  else (skipValue input).map fun rest => (f, rest)

/-- Reads members up to the closing brace. Each takes at least one symbol, so as many rounds as
there are symbols are enough. -/
def members? : (rounds : Nat) → Found → List Symbol → Option (Found × List Symbol)
  | 0, _, _ => none
  | rounds + 1, f, input =>
    match text? (skipBlanks input) with
    | none => none
    | some (name, rest) =>
      match skipBlanks rest with
      | some ':' :: rest =>
        match field? name f rest with
        | none => none
        | some (f, rest) =>
          match skipBlanks rest with
          | some ',' :: rest => members? rounds f rest
          | some '}' :: rest => some (f, rest)
          | _ => none
      | _ => none

/-- Reads an object whose opening brace has been read. -/
def object? (input : List Symbol) : Option (WriteBody × List Symbol) :=
  match skipBlanks input with
  | some '}' :: rest => some ({}, rest)
  | input => (members? input.length {} input).map fun (f, rest) => (f.body, rest)

/-- Reads an array whose opening bracket has been read. -/
def array? (input : List Symbol) : Option (WriteBody × List Symbol) :=
  match skipBlanks input with
  | some ']' :: rest => some ({}, rest)
  | input =>
    match text? input with
    | none => none
    | some (key, rest) =>
      match skipBlanks rest with
      | some ']' :: rest => some ({ key }, rest)
      | some ',' :: rest =>
        match value? (skipBlanks rest) with
        | none => none
        | some (value, rest) =>
          match skipBlanks rest with
          | some ']' :: rest => some ({ key, value }, rest)
          | _ => none
      | _ => none

/-- Reads a body and gives what follows it. -/
def read? (input : List Symbol) : Option (WriteBody × List Symbol) :=
  match skipBlanks input with
  | some '{' :: rest => object? rest
  | some '[' :: rest => array? rest
  | _ => none

/-- The body that the whole input spells. -/
def ofWhole? (input : List Symbol) : Option WriteBody :=
  match read? input with
  | some (body, rest) => if (skipBlanks rest).isEmpty then some body else none
  | none => none

/-- The body that the input begins with. -/
def ofFirst? (input : List Symbol) : Option WriteBody := (read? input).map Prod.fst

end WriteBody

end CacheAside
