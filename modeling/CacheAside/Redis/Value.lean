import CacheAside.Text.Numeral
import CacheAside.Text.Unseen
import CacheAside.Text.Utf8

/-!
# Replies of a Redis server

A reply begins with a mark that says what it is and continues with a line. A status, an error and an
integer are the line; a string of bytes and an array are as long as the line says, or absent if it
is negative.

`Value.read` reads one reply from the bytes that have arrived. It tells a reply that is not complete
from bytes that can never become one.
-/

namespace CacheAside.Redis

/-- An error that the server answers: its code and what it says beside it. -/
structure ServerReport where
  code : String
  detail : Option String
  deriving DecidableEq, Repr

inductive Value
  | nil
  | int (n : Int)
  | data (bytes : List UInt8)
  | array (items : List Value)
  | status (text : String)
  | error (report : ServerReport)
  deriving Repr

/-- What comes of reading the bytes that have arrived. -/
inductive Reading (α : Type)
  | done (value : α) (rest : List UInt8)
  | incomplete
  | malformed

namespace Value

/-! ## Reading -/

/-- The line up to the next line end, and what follows it. -/
def line? (bytes : List UInt8) : Option (List UInt8 × List UInt8) :=
  go [] bytes
where
  go (done : List UInt8) : List UInt8 → Option (List UInt8 × List UInt8)
    | 0x0D :: 0x0A :: rest => some (done.reverse, rest)
    | b :: rest => go (b :: done) rest
    | [] => none

/-- Reads a line of text. -/
def textLine (bytes : List UInt8) : Reading String :=
  match line? bytes with
  | none => .incomplete
  | some (line, rest) =>
    match Utf8.decode? line with
    | some text => .done text rest
    | none => .malformed

def isBlank (c : Char) : Bool := c = ' ' || ('\t' ≤ c && c ≤ '\r')

/-- A signed number of 64 bits, blanks around it aside. -/
def integer? (s : String) : Option Int :=
  let cs := ((s.toList.dropWhile isBlank).reverse.dropWhile isBlank).reverse
  Numeral.signedWord? (String.ofList cs)

def intLine (bytes : List UInt8) : Reading Int :=
  match textLine bytes with
  | .incomplete => .incomplete
  | .malformed => .malformed
  | .done text rest =>
    match integer? text with
    | some n => .done n rest
    | none => .malformed

/-- The code is the first word of the line. -/
def report (text : String) : ServerReport :=
  let cs := text.toList
  { code := String.ofList (cs.takeWhile (· ≠ ' '))
    detail := match cs.dropWhile (· ≠ ' ') with
      | _ :: detail => some (String.ofList detail)
      | [] => none }

/-- Reads `n` bytes and the line end after them. -/
def dataOf (n : Nat) (bytes : List UInt8) : Reading Value :=
  let rest := bytes.drop n
  if bytes.length < n + 2 then
    if rest.isEmpty || rest = [0x0D] then .incomplete else .malformed
  else
    match rest with
    | 0x0D :: 0x0A :: rest => .done (.data (bytes.take n)) rest
    | _ => .malformed

/-- The levels of arrays that a reply can have. -/
def maxDepth : Nat := 100

mutual

/-- Reads one value. Every value takes a byte at least, so `fuel` is enough if it is more than
twice the number of bytes. -/
def readFrom : (fuel depth : Nat) → List UInt8 → Reading Value
  | 0, _, _ => .incomplete
  | _ + 1, _, [] => .incomplete
  | fuel + 1, depth, mark :: rest =>
    if maxDepth < depth then .malformed
    else if mark = '+'.toUInt8 then
      match textLine rest with
      | .done text rest => .done (.status text) rest
      | .incomplete => .incomplete
      | .malformed => .malformed
    else if mark = '-'.toUInt8 then
      match textLine rest with
      | .done text rest => .done (.error (report text)) rest
      | .incomplete => .incomplete
      | .malformed => .malformed
    else if mark = ':'.toUInt8 then
      match intLine rest with
      | .done n rest => .done (.int n) rest
      | .incomplete => .incomplete
      | .malformed => .malformed
    else if mark = '$'.toUInt8 then
      match intLine rest with
      | .done n rest => if n < 0 then .done .nil rest else dataOf n.toNat rest
      | .incomplete => .incomplete
      | .malformed => .malformed
    else if mark = '*'.toUInt8 then
      match intLine rest with
      | .done n rest =>
        if n < 0 then .done .nil rest
        else match itemsFrom fuel depth n.toNat rest with
          | .done items rest => .done (.array items) rest
          | .incomplete => .incomplete
          | .malformed => .malformed
      | .incomplete => .incomplete
      | .malformed => .malformed
    else .malformed

/-- Reads the items of an array. -/
def itemsFrom : (fuel depth n : Nat) → List UInt8 → Reading (List Value)
  | _, _, 0, bytes => .done [] bytes
  | 0, _, _ + 1, _ => .incomplete
  | fuel + 1, depth, n + 1, bytes =>
    match readFrom fuel (depth + 1) bytes with
    | .done item rest =>
      match itemsFrom fuel depth n rest with
      | .done items rest => .done (item :: items) rest
      | .incomplete => .incomplete
      | .malformed => .malformed
    | .incomplete => .incomplete
    | .malformed => .malformed

end

/-- Reads one reply. -/
def read (bytes : List UInt8) : Reading Value := readFrom (2 * bytes.length + 2) 1 bytes

/-! ## Errors within -/

mutual

/-- The first error within a value. -/
def error? : Value → Option ServerReport
  | .error report => some report
  | .array items => firstError? items
  | _ => none

/-- The first error within a row of values. -/
def firstError? : List Value → Option ServerReport
  | [] => none
  | item :: items => (error? item).or (firstError? items)

end

/-! ## Showing -/

/-- One character of a text shown between quotation marks. -/
def shownChar (c : Char) : String :=
  if c = '"' then "\\\"" else if c = '\\' then "\\\\"
  else if c = '\n' then "\\n" else if c = '\r' then "\\r" else if c = '\t' then "\\t"
  else if c = '\x00' then "\\0"
  else if Unseen.isUnseen c then "\\u\x7b" ++ Numeral.hex c.toNat ++ "\x7d"
  else c.toString

/-- A text between quotation marks. -/
def shownText (s : String) : String := "\"" ++ String.join (s.toList.map shownChar) ++ "\""

def shownBytes (bytes : List UInt8) : String :=
  match Utf8.decode? bytes with
  | some s => "string-data('" ++ shownText s ++ "')"
  | none =>
    "binary-data([" ++ ", ".intercalate (bytes.map fun b => toString b.toNat) ++ "])"

mutual

/-- The value as an error message shows it. -/
def shown : Value → String
  | .nil => "nil"
  | .int n => s!"int({n})"
  | .data bytes => shownBytes bytes
  | .array items => "bulk(" ++ ", ".intercalate (shownItems items) ++ ")"
  | .status text => if text = "OK" then "ok" else "status(" ++ shownText text ++ ")"
  | .error report => shownText report.code

/-- Each item of an array as an error message shows it. -/
def shownItems : List Value → List String
  | [] => []
  | item :: items => shown item :: shownItems items

end

end Value

end CacheAside.Redis
