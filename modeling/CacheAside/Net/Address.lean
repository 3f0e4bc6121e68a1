import CacheAside.Text.Numeral

/-!
# Addresses

Internet addresses and socket addresses in their usual spelling. Reading accepts every spelling of
an address and writing produces one of them: an IPv6 address is written with its longest run of at
least two zero groups as `::`, the first of several equally long ones, and a mapped IPv4 address
keeps its dots.
-/

namespace CacheAside.Net

/-- The four octets of an IPv4 address. -/
structure IPv4 where
  a : UInt8
  b : UInt8
  c : UInt8
  d : UInt8
  deriving DecidableEq, Repr

/-- The eight groups of an IPv6 address. -/
structure IPv6 where
  groups : Vector UInt16 8
  deriving DecidableEq, Repr

/-! ## IPv4 -/

namespace IPv4

/-- The address on which a listener hears all interfaces. -/
def unspecified : IPv4 := ⟨0, 0, 0, 0⟩

def render (ip : IPv4) : String :=
  ".".intercalate ([ip.a, ip.b, ip.c, ip.d].map fun o => toString o.toNat)

/-- A number from 0 to 255, without leading zeros. -/
def octet? (cs : List Char) : Option UInt8 :=
  if 1 < cs.length ∧ cs.head? = some '0' then none
  else ((Numeral.digits? cs).filter (· < 256)).map UInt8.ofNat

def ofChars? (cs : List Char) : Option IPv4 :=
  match (cs.splitOnP (· == '.')).mapM octet? with
  | some [a, b, c, d] => some ⟨a, b, c, d⟩
  | _ => none

/-- The last two groups of the IPv6 address that ends in this one. -/
def groups (ip : IPv4) : List UInt16 :=
  let pair (high low : UInt8) : UInt16 := UInt16.ofNat (high.toNat * 256 + low.toNat)
  [pair ip.a ip.b, pair ip.c ip.d]

end IPv4

/-! ## IPv6 -/

namespace IPv6

/-- One to four hexadecimal digits. -/
def group? (cs : List Char) : Option UInt16 :=
  if cs.length = 0 ∨ 4 < cs.length then none
  else (cs.mapM Numeral.hexDigit?).map fun ds => UInt16.ofNat (ds.foldl (16 * · + ·) 0)

/-- The groups on one side of the gap. The last piece of the whole address may be a dotted IPv4
address, which makes two groups. -/
def side? (isLast : Bool) (cs : List Char) : Option (List UInt16) :=
  if cs.isEmpty then some []
  else
    let pieces := cs.splitOnP (· == ':')
    match isLast, pieces.getLast?.bind IPv4.ofChars? with
    | true, some ip => (pieces.dropLast.mapM group?).map (· ++ ip.groups)
    | _, _ => pieces.mapM group?

/-- The text before and after the first double colon. -/
def splitGap? : List Char → Option (List Char × List Char)
  | ':' :: ':' :: rest => some ([], rest)
  | c :: rest => (splitGap? rest).map fun (before, after) => (c :: before, after)
  | [] => none

/-- The address with the given groups, if there are eight. -/
def ofGroups? (gs : List UInt16) : Option IPv6 :=
  if h : gs.length = 8 then some ⟨⟨gs.toArray, by simp [h]⟩⟩ else none

/-- Reads eight groups, or fewer around a double colon, which stands for at least one zero
group. -/
def ofChars? (cs : List Char) : Option IPv6 :=
  match splitGap? cs with
  | none => (side? true cs).bind ofGroups?
  | some (before, after) => do
    let front ← side? false before
    let back ← side? true after
    let missing := 8 - (front.length + back.length)
    if missing = 0 then none else ofGroups? (front ++ List.replicate missing 0 ++ back)

/-- The number of zero groups that `gs` begins with. -/
def leadingZeros (gs : List UInt16) : Nat := (gs.takeWhile (· == 0)).length

/-- Where the longest run of zero groups begins, and its length. -/
def longestRun (gs : List UInt16) : Nat × Nat :=
  let zeros (i : Nat) : Nat := leadingZeros (gs.drop i)
  (List.range gs.length).foldl
    (fun best i => if best.2 < zeros i then (i, zeros i) else best) (0, 0)

def renderGroups (gs : List UInt16) : String :=
  ":".intercalate (gs.map fun g => Numeral.hex g.toNat)

/-- The IPv4 address that this one maps. -/
def mapped? (ip : IPv6) : Option IPv4 :=
  let octets (g : UInt16) : UInt8 × UInt8 := (UInt8.ofNat (g.toNat / 256), UInt8.ofNat g.toNat)
  match ip.groups.toList with
  | [0, 0, 0, 0, 0, 0xFFFF, g, h] =>
    some ⟨(octets g).1, (octets g).2, (octets h).1, (octets h).2⟩
  | _ => none

def render (ip : IPv6) : String :=
  match ip.mapped? with
  | some ip => "::ffff:" ++ ip.render
  | none =>
    let gs := ip.groups.toList
    let (start, length) := longestRun gs
    if 1 < length then
      renderGroups (gs.take start) ++ "::" ++ renderGroups (gs.drop (start + length))
    else renderGroups gs

end IPv6

/-! ## Socket addresses -/

/-- Where a listener waits. The scope of an IPv6 address is written only if it is not zero. -/
inductive SocketAddress
  | v4 (ip : IPv4) (port : UInt16)
  | v6 (ip : IPv6) (scope : UInt32) (port : UInt16)
  deriving DecidableEq, Repr

namespace SocketAddress

def render : SocketAddress → String
  | .v4 ip port => ip.render ++ ":" ++ toString port.toNat
  | .v6 ip scope port =>
    let zone := if scope = 0 then "" else "%" ++ toString scope.toNat
    "[" ++ ip.render ++ zone ++ "]:" ++ toString port.toNat

/-- A port, with any number of leading zeros. -/
def port? (cs : List Char) : Option UInt16 :=
  ((Numeral.digits? cs).filter (· < UInt16.size)).map UInt16.ofNat

/-- An IPv6 address and what follows a percent sign. -/
def scoped? (cs : List Char) : Option (IPv6 × UInt32) := do
  let ip ← IPv6.ofChars? (cs.takeWhile (· ≠ '%'))
  match cs.dropWhile (· ≠ '%') with
  | [] => some (ip, 0)
  | _ :: zone => ((Numeral.digits? zone).filter (· < UInt32.size)).map fun n => (ip, UInt32.ofNat n)

/-- Reads `a.b.c.d:port` or `[address]:port`. -/
def ofString? (s : String) : Option SocketAddress :=
  match s.toList with
  | '[' :: cs =>
    match cs.dropWhile (· ≠ ']') with
    | ']' :: ':' :: port => do
      let (ip, scope) ← scoped? (cs.takeWhile (· ≠ ']'))
      return .v6 ip scope (← port? port)
    | _ => none
  | cs =>
    match cs.dropWhile (· ≠ ':') with
    | ':' :: port => do return .v4 (← IPv4.ofChars? (cs.takeWhile (· ≠ ':'))) (← port? port)
    | _ => none

end SocketAddress

end CacheAside.Net
