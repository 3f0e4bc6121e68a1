import CacheAside.Log.Logged

/-!
# The stats reporter

A clock that reports the counters once every period, the first time after one full period. Time
is counted in milliseconds. When time passes, every report that falls due is made at its moment.
When the clock jumps, at most one report is made, at the moment of arrival; if it is late, the next
one comes a full period after it.
-/

namespace CacheAside

structure Reporter where
  /-- The time between two reports. -/
  period : Nat
  /-- The time of the next report. -/
  due : Nat
  /-- The time now. -/
  now : Nat
  isFinished : Bool := false
  deriving DecidableEq, Repr

namespace Reporter

/-- The seconds after which a clock has no reading any more. -/
def clockEnd : Nat := 0x8000000000000000

/-- The seconds between two reports: at least one. -/
def seconds (interval : Nat) : Nat := max interval 1

/-- Starts at the time `now`. If the clock ends before the first report falls due, the reporter ends
at once. -/
def start (interval now : Nat) : Logged Reporter := do
  let period := 1000 * seconds interval
  Logged.report (.reporterStarted (seconds interval))
  return { period, due := now + period, now,
           isFinished := clockEnd ≤ now / 1000 + seconds interval }

/-- The number of reports that fall due up to the time `t`. -/
def dueUntil (r : Reporter) (t : Nat) : Nat := if t < r.due then 0 else (t - r.due) / r.period + 1

/-- Lets `ms` milliseconds pass. -/
def sleep (r : Reporter) (ms : Nat) (counters : Counters) : Logged Reporter :=
  let now := r.now + ms
  if r.isFinished then pure { r with now }
  else
    let n := r.dueUntil now
    ⟨{ r with now, due := r.due + n * r.period }, List.replicate n (.reported counters)⟩

/-- A report that is no later than this many milliseconds counts as punctual. -/
def tolerance : Nat := 5

/-- Lets the clock jump by `ms` milliseconds. -/
def jump (r : Reporter) (ms : Nat) (counters : Counters) : Logged Reporter :=
  let now := r.now + ms
  if r.isFinished || now < r.due then pure { r with now }
  else do
    Logged.report (.reported counters)
    let base := if r.due + tolerance < now then now else r.due
    return { r with now, due := base + r.period }

def abort (r : Reporter) : Reporter := { r with isFinished := true }

end Reporter

end CacheAside
