import CacheAside.Redis.Session

/-!
# Transcripts

A computation that talks to servers, run against what they have answered so far. The answers are
used up in order. The first thing that asks for more is remembered, and from then on nothing is
heard: what the rest of the computation comes to means nothing. Whoever can reach the servers does
what was asked, adds the answer to the end of the transcript and runs the computation again from
its beginning; it takes the same way up to the same point, and finds the answer there.
-/

namespace CacheAside.Redis

/-- A command as it is sent: an array of byte strings. -/
def Command.encode (c : Command) : List UInt8 :=
  let line (text : String) : List UInt8 := (text ++ "\r\n").toUTF8.toList
  line ("*" ++ toString c.length) ++ c.flatMap fun part =>
    line ("$" ++ toString part.utf8ByteSize) ++ line part

/-- What is asked of the network. A connection is known by its number. -/
inductive Ask
  | dial (place : Place)
  | send (connection : Nat) (command : Command)
  deriving DecidableEq, Repr

/-- What the network came back with. -/
inductive Answer
  | dialled (result : Except String Nat)
  | arrived (bytes : List UInt8)

structure Transcript where
  /-- The answers that are not used yet. -/
  answers : List Answer := []
  /-- The first thing that was asked and has no answer. -/
  unanswered : Option Ask := none

namespace Transcript

/-- The answer to something asked, if there is one. -/
def next (a : Ask) (t : Transcript) : Option Answer × Transcript :=
  match t.unanswered, t.answers with
  | none, answer :: answers => (some answer, { t with answers })
  | none, [] => (none, { t with unanswered := some a })
  | some _, _ => (none, t)

/-- Why a connection is not opened for which there is no answer. -/
def unheard : String := "no answer"

def transport : Transport Transcript Nat where
  dial place t :=
    match t.next (.dial place) with
    | (some (.dialled result), t) => (result, t)
    | (_, t) => (.error unheard, t)
  send command connection t :=
    match t.next (.send connection command) with
    | (some (.arrived bytes), t) => (bytes, connection, t)
    | (_, t) => ([], connection, t)

end Transcript

end CacheAside.Redis
