/-!
# Media types

What a `content-type` says about a body: type, subtype and, after the last plus sign, a suffix,
followed by parameters. Only one spelling rule is loose: blanks may stand before a parameter and
after a quoted value, but nowhere else.
-/

namespace CacheAside.Http

/-- The characters of names and unquoted values. -/
def isToken (c : Char) : Bool := c.isAlphanum || "!#$%&'*+-.^_\x60|~".contains c

/-- The places in a row of parameters. -/
inductive ParameterPlace
  /-- Where a parameter may begin. -/
  | start
  | name
  | valueStart
  | value
  | quotedStart
  | quoted
  /-- After a quoted value. -/
  | after
  deriving DecidableEq, Repr

namespace ParameterPlace

/-- Whether the row may end here. -/
def isComplete : ParameterPlace → Bool
  | .start | .valueStart | .value | .after => true
  | _ => false

/-- Where a character leads. A quotation mark right after the opening one does not close. -/
def next? (place : ParameterPlace) (c : Char) : Option ParameterPlace :=
  let isText := ' ' ≤ c ∧ c ≠ '\x7f'
  match place with
  | .start => if c = ' ' then some .start else if isToken c then some .name else none
  | .name => if isToken c then some .name else if c = '=' then some .valueStart else none
  | .valueStart =>
    if c = '"' then some .quotedStart else if isToken c then some .value else none
  | .value => if isToken c then some .value else if c = ';' then some .start else none
  | .quotedStart => if isText then some .quoted else none
  | .quoted => if c = '"' then some .after else if isText then some .quoted else none
  | .after => if c = ' ' then some .after else if c = ';' then some .start else none

end ParameterPlace

/-- Whether the characters are parameters, from `place` on. -/
def areParameters (place : ParameterPlace) : List Char → Bool
  | [] => place.isComplete
  | c :: cs =>
    match place.next? c with
    | some place => areParameters place cs
    | none => false

/-- Type, subtype and suffix, in lower case. -/
structure MediaType where
  type : String
  subtype : String
  suffix : Option String := none
  deriving DecidableEq, Repr

namespace MediaType

/-- Splits a subtype at its last plus sign, unless it begins with it. -/
def splitSuffix (cs : List Char) : List Char × Option (List Char) :=
  let after := (cs.reverse.takeWhile (· ≠ '+')).reverse
  let before := cs.take (cs.length - after.length - 1)
  if before.isEmpty then (cs, none) else (before, some after)

/-- Reads a media type from the value of a field, which has to be visible ASCII. -/
def ofString? (s : String) : Option MediaType :=
  let cs := s.toList.map Char.toLower
  let type := cs.takeWhile isToken
  match type.isEmpty, cs.dropWhile isToken with
  | false, '/' :: rest =>
    let subtype := rest.takeWhile isToken
    let areGood := match rest.dropWhile isToken with
      | [] => true
      | ';' :: parameters => !subtype.isEmpty && parameters.all (· ≤ '~') &&
          areParameters .start parameters
      | _ => false
    if areGood then
      let (subtype, suffix) := splitSuffix subtype
      some ⟨String.ofList type, String.ofList subtype, suffix.map String.ofList⟩
    else none
  | _, _ => none

/-- Whether a body of this type is JSON. -/
def isJson (m : MediaType) : Bool :=
  m.type = "application" && (m.subtype = "json" || m.suffix = some "json")

end MediaType

end CacheAside.Http
