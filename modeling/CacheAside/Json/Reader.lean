import CacheAside.Text.Numeral

/-!
# Reading JSON

The parts from which a reader of requests is made: blanks, texts, and values of no interest. The
input is a row of characters in which `none` stands for bytes that are not UTF-8.

A text that is wanted has to be UTF-8 and its escapes have to spell characters. A value of no
interest only has to be formed correctly: `skipValue` does not look at the size of numbers, at what
the escapes spell, or at the bytes of a text, and nesting costs it one frame a level.
-/

namespace CacheAside.Json

/-- A character, or a hole where the bytes are not UTF-8. -/
abbrev Symbol := Option Char

/-- Blanks are space, tab, line feed and carriage return. -/
def isBlank (s : Symbol) : Bool :=
  s = some ' ' || s = some '\t' || s = some '\n' || s = some '\r'

def skipBlanks (input : List Symbol) : List Symbol := input.dropWhile isBlank

/-- The character that a two-character escape stands for. -/
def unescape? : Char → Option Char
  | '"' => some '"'
  | '\\' => some '\\'
  | '/' => some '/'
  | 'b' => some '\x08'
  | 'f' => some '\x0c'
  | 'n' => some '\n'
  | 'r' => some '\r'
  | 't' => some '\t'
  | _ => none

/-! ## Texts -/

/-- The number that four hexadecimal digits spell. -/
def unit? (a b c d : Symbol) : Option Nat := do
  let a ← Numeral.hexDigit? (← a)
  let b ← Numeral.hexDigit? (← b)
  let c ← Numeral.hexDigit? (← c)
  let d ← Numeral.hexDigit? (← d)
  return ((a * 16 + b) * 16 + c) * 16 + d

/-- What a `\u` escape leaves behind. -/
inductive Spelled
  /-- A whole character. -/
  | char (c : Char)
  /-- The first half of a pair. -/
  | half (high : Nat)

/-- Reads one unit after `high`, the first half of a pair if one is waiting for its second. -/
def Spelled.ofUnit? (high : Option Nat) (n : Nat) : Option Spelled :=
  let isHigh := 0xD800 ≤ n ∧ n < 0xDC00
  let isLow := 0xDC00 ≤ n ∧ n < 0xE000
  match high with
  | some h =>
    let both := 0x10000 + (h - 0xD800) * 0x400 + (n - 0xDC00)
    if isLow then some (.char (Char.ofNat both)) else none
  | none =>
    if isHigh then some (.half n) else if isLow then none else some (.char (Char.ofNat n))

/-- Reads the rest of a text whose opening quotation mark has been read, and gives the text and
what follows it. `done` holds the characters so far, last first; `high` is the first half of a
pair that waits for its second. -/
def textFrom (done : List Char) (high : Option Nat) : List Symbol → Option (String × List Symbol)
  | some '\\' :: some 'u' :: a :: b :: c :: d :: rest =>
    match (unit? a b c d).bind (Spelled.ofUnit? high) with
    | some (.char x) => textFrom (x :: done) none rest
    | some (.half h) => textFrom done (some h) rest
    | none => none
  | some '\\' :: some e :: rest =>
    match high, unescape? e with
    | none, some x => textFrom (x :: done) none rest
    | _, _ => none
  | some c :: rest =>
    if high.isSome || c = '\\' || c.toNat < 0x20 then none
    else if c = '"' then some (String.ofList done.reverse, rest)
    else textFrom (c :: done) none rest
  | _ => none

/-- Reads a text, quotation marks included. -/
def text? : List Symbol → Option (String × List Symbol)
  | some '"' :: rest => textFrom [] none rest
  | _ => none

/-! ## Values of no interest -/

/-- What encloses the value being skipped. -/
inductive Frame
  | array
  | object
  deriving DecidableEq, Repr

/-- The places in a number. -/
inductive Digits
  | minus | zero | whole | point | fraction | exponent | sign | power
  deriving DecidableEq, Repr

/-- Whether a number may end here. -/
def Digits.complete : Digits → Bool
  | .zero | .whole | .fraction | .power => true
  | _ => false

/-- Where a character leads within a number. A leading zero is followed by no digit. -/
def Digits.next? (place : Digits) (c : Char) : Option Digits :=
  let exponent := c = 'e' ∨ c = 'E'
  match place with
  | .minus => if c = '0' then some .zero else if c.isDigit then some .whole else none
  | .zero => if c = '.' then some .point else if exponent then some .exponent else none
  | .whole =>
    if c.isDigit then some .whole else if c = '.' then some .point
    else if exponent then some .exponent else none
  | .point => if c.isDigit then some .fraction else none
  | .fraction => if c.isDigit then some .fraction else if exponent then some .exponent else none
  | .exponent =>
    if c = '+' ∨ c = '-' then some .sign else if c.isDigit then some .power else none
  | .sign | .power => if c.isDigit then some .power else none

/-- What may come next. -/
inductive Spot
  /-- A value; right after an opening bracket also the closing one. -/
  | value (closable : Bool)
  /-- A member's name; right after an opening brace also the closing one. -/
  | name (closable : Bool)
  /-- The colon after a name. -/
  | colon
  /-- What can follow a value. -/
  | after
  /-- A character of a text, which is a name or a value. -/
  | quoted (isName : Bool)
  /-- The character after a backslash. -/
  | escaped (isName : Bool)
  /-- One of the hexadecimal digits that are still missing. -/
  | hex (isName : Bool) (missing : Nat)
  /-- The rest of `true`, `false` or `null`. -/
  | word (missing : List Char)
  /-- A further character of a number. -/
  | number (place : Digits)
  deriving DecidableEq, Repr

/-- What a symbol does to the skipping. -/
inductive Move
  /-- It belongs to the value. -/
  | on (spot : Spot) (frames : List Frame)
  /-- The value has ended before it. -/
  | stop
  /-- It cannot stand here. -/
  | refuse
  deriving DecidableEq, Repr

/-- A symbol after a value: the end of the outermost value, or a comma or the closing mark of the
frame around it. -/
def close (frames : List Frame) (s : Symbol) : Move :=
  match frames with
  | [] => .stop
  | frame :: outer =>
    if isBlank s then .on .after frames
    else match frame, s with
      | .array, some ',' => .on (.value false) frames
      | .object, some ',' => .on (.name false) frames
      | .array, some ']' => .on .after outer
      | .object, some '}' => .on .after outer
      | _, _ => .refuse

/-- A symbol where a value has to begin. -/
def openValue (closable : Bool) (frames : List Frame) (s : Symbol) : Move :=
  if isBlank s then .on (.value closable) frames
  else match s with
    | some '"' => .on (.quoted false) frames
    | some '[' => .on (.value true) (.array :: frames)
    | some '{' => .on (.name true) (.object :: frames)
    | some 't' => .on (.word ['r', 'u', 'e']) frames
    | some 'f' => .on (.word ['a', 'l', 's', 'e']) frames
    | some 'n' => .on (.word ['u', 'l', 'l']) frames
    | some '-' => .on (.number .minus) frames
    | some '0' => .on (.number .zero) frames
    | some ']' => if closable then close frames s else .refuse
    | some c => if c.isDigit then .on (.number .whole) frames else .refuse
    | none => .refuse

/-- A symbol where a member's name has to begin. -/
def openName (closable : Bool) (frames : List Frame) (s : Symbol) : Move :=
  if isBlank s then .on (.name closable) frames
  else match s with
    | some '"' => .on (.quoted true) frames
    | some '}' => if closable then close frames s else .refuse
    | _ => .refuse

/-- What symbol `s` does at `spot`. -/
def advance (spot : Spot) (frames : List Frame) (s : Symbol) : Move :=
  match spot with
  | .value closable => openValue closable frames s
  | .name closable => openName closable frames s
  | .colon =>
    if isBlank s then .on .colon frames
    else if s = some ':' then .on (.value false) frames else .refuse
  | .after => close frames s
  | .quoted isName =>
    match s with
    | none => .on (.quoted isName) frames
    | some c =>
      if c = '"' then .on (if isName then .colon else .after) frames
      else if c = '\\' then .on (.escaped isName) frames
      else if c.toNat < 0x20 then .refuse
      else .on (.quoted isName) frames
  | .escaped isName =>
    if s = some 'u' then .on (.hex isName 4) frames
    else if (s.bind unescape?).isSome then .on (.quoted isName) frames
    else .refuse
  | .hex isName missing =>
    if (s.bind Numeral.hexDigit?).isNone then .refuse
    else if missing ≤ 1 then .on (.quoted isName) frames
    else .on (.hex isName (missing - 1)) frames
  | .word missing =>
    match missing with
    | [] => close frames s
    | c :: rest =>
      if s = some c then .on (if rest.isEmpty then .after else .word rest) frames else .refuse
  | .number place =>
    match s.bind place.next? with
    | some place => .on (.number place) frames
    | none => if place.complete then close frames s else .refuse

/-- Whether the outermost value may end with the input. -/
def Spot.ended : Spot → Bool
  | .after => true
  | .number place => place.complete
  | _ => false

/-- Skips from `spot` to the end of the outermost value and gives what follows it. -/
def skipFrom (spot : Spot) (frames : List Frame) : List Symbol → Option (List Symbol)
  | [] => if spot.ended && frames.isEmpty then some [] else none
  | s :: rest =>
    match advance spot frames s with
    | .on spot frames => skipFrom spot frames rest
    | .stop => some (s :: rest)
    | .refuse => none

/-- Skips one value, blanks before it included. -/
def skipValue (input : List Symbol) : Option (List Symbol) := skipFrom (.value false) [] input

end CacheAside.Json
