import CacheAside.Config
import CacheAside.Log.Event
import CacheAside.Text.Numeral

/-!
# Filters

Which events are written. A filter is a row of directives, separated by commas: a level, a part of
the program, or both with an equals sign between them. An event is written if it is no finer than
the level of the directive that names its source most closely; a directive without a name names
all sources, and a source without a directive is silent.

A filter that cannot be read is as good as none, and then events from `INFO` on are written. The
empty filter lets errors pass.
-/

namespace CacheAside

/-- How fine a level is: `0` is nothing at all and `5` finer than any event. -/
def Level.rank : Level → Nat
  | .error => 1
  | .warn => 2
  | .info => 3
  | .debug => 4

structure Directive where
  /-- The beginning of the sources that are meant. -/
  target : String
  /-- The rank of the finest events that are written. -/
  rank : Nat
  /-- Whether only events within a span are meant, of which there are none. -/
  isSpan : Bool := false
  deriving DecidableEq, Repr

namespace Directive

/-- The rank that a word stands for: a name in any case, or a number. -/
def rank? (word : String) : Option Nat :=
  let names := [("off", 0), ("error", 1), ("warn", 2), ("info", 3), ("debug", 4), ("trace", 5)]
  (Numeral.unsigned? 6 word).or (names.lookup (String.ofList (word.toList.map Char.toLower)))

/-- The rank behind an equals sign: without a word, everything is meant. -/
def rankAfter? (word : List Char) : Option Nat :=
  if word.isEmpty then some 5 else rank? (String.ofList word)

/-- Whether a directive can begin with a character. Beyond ASCII every character may begin a name:
no source has such a name, so the directive is without effect. -/
def isInitial (c : Char) : Bool := c.isAlphanum || "-:_".contains c || '\x7f' < c

def ofString? (s : String) : Option Directive :=
  let cs := s.trimAscii.toString.toList
  let name := cs.takeWhile fun c => c ≠ '=' ∧ c ≠ '['
  let target := String.ofList name
  match cs.dropWhile fun c => c ≠ '=' ∧ c ≠ '[' with
  | '=' :: word =>
    if name.head?.any isInitial then (rankAfter? word).map (⟨target, ·, false⟩) else none
  | '[' :: rest =>
    match rest.dropWhile (· ≠ ']') with
    | [']'] => some ⟨target, 5, true⟩
    | ']' :: '=' :: word => (rankAfter? word).map (⟨target, ·, true⟩)
    | _ => none
  | _ =>
    if !name.head?.any isInitial then none
    else match rank? target with
      | some rank => some ⟨"", rank, false⟩
      | none => some ⟨target, 5, false⟩

/-- Whether a directive speaks of a source. -/
def names (d : Directive) (source : String) : Bool := !d.isSpan && source.startsWith d.target

end Directive

/-- The directives of a filter. -/
abbrev Filter := List Directive

namespace Filter

/-- The filter of a program that has not been told. -/
def standard : Filter := [⟨"kv_cache_server", 3, false⟩]

def ofString? (s : String) : Option Filter :=
  if s = "" then some [⟨"", 1, false⟩]
  else ((s.toList.splitOnP (· == ',')).map String.ofList).mapM Directive.ofString?

/-- The filter that a variable is set to. -/
def ofSetting (v : Option Setting) : Filter :=
  ((v.bind Setting.text?).bind ofString?).getD standard

/-- The directive with the longest name for a source; of two for one name the later one counts. -/
def closest? (f : Filter) (source : String) : Option Directive :=
  (f.filter (·.names source)).foldl
    (fun best d => match best with
      | some b => if b.target.length ≤ d.target.length then some d else best
      | none => some d)
    none

/-- Whether an event is written. -/
def passes (f : Filter) (e : Event) : Bool :=
  (f.closest? e.source).any fun d => e.level.rank ≤ d.rank

end Filter

end CacheAside
