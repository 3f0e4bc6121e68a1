import CacheAside.Redis.Session

/-!
# Scripted servers

A transport that plays scripts: each attempt to connect gets the next script, and each command the
next of its replies. A command that finds no reply left is read, and the connection ends. Once the
scripts have run out, every attempt fails for the reason `refusal`. Scripted servers are found at
hosts: a local socket does not exist.
-/

namespace CacheAside.Redis

/-- The scripts that are left, and the commands that have been read. -/
structure Scripted where
  scripts : List (List (List UInt8))
  refusal : String
  commands : List Command := []
  deriving DecidableEq, Repr

namespace Scripted

/-- Forgets the commands and gives them, the oldest first. -/
def takeCommands (s : Scripted) : List Command × Scripted :=
  (s.commands.reverse, { s with commands := [] })

/-- Why there is no connection to a local socket. -/
def noSocket : String := "No such file or directory (os error 2)"

/-- A connection is what is left of its script. -/
def transport : Transport Scripted (List (List UInt8)) where
  dial place s :=
    match place, s.scripts with
    | .socket _, _ => (.error noSocket, s)
    | .host .., [] => (.error s.refusal, s)
    | .host .., script :: scripts => (.ok script, { s with scripts })
  send c script s :=
    let s := { s with commands := c :: s.commands }
    match script with
    | [] => ([], [], s)
    | reply :: script => (reply, script, s)

end Scripted

end CacheAside.Redis
