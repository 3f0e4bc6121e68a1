import CacheAside.Store.Backend

/-!
# A store that fails on demand

`Backend.faulty` lets requests and connections of another backend fail as it is told to. A fault
strikes before the store is touched. A rule for one key comes before a rule for all keys, and of
two rules for the same requests the later one replaces the earlier one. Connections can be limited
in number: every attempt counts, also one that is refused.
-/

namespace CacheAside

/-- How a request fails. -/
inductive Fault
  | error (cause : StoreError)
  | crash (text : String)
  deriving DecidableEq, Repr

/-- How the caller learns of it. -/
def Fault.reply : Fault → Reply
  | .error cause => .failed cause
  | .crash text => .crashed text

/-- Which requests fail: those of one kind for one key, or, without a key, for every key. -/
structure FaultRule where
  verb : Verb
  key : Option Key
  fault : Fault
  deriving DecidableEq, Repr

/-- A store, the rules by which its requests fail, and its connections so far. -/
structure Faulty (σ : Type) where
  store : σ
  rules : List FaultRule := []
  attempts : Nat := 0
  /-- The number of attempts that are not refused. -/
  limit : Option Nat := none

namespace Faulty

variable {σ : Type}

/-- Adds a rule. The newest rule stands first and hides an older one for the same requests. -/
def inject (s : Faulty σ) (rule : FaultRule) : Faulty σ := { s with rules := rule :: s.rules }

/-- Takes every rule back. -/
def heal (s : Faulty σ) : Faulty σ := { s with rules := [] }

/-- The newest rule for requests of this kind and exactly this key. -/
def rule? (s : Faulty σ) (verb : Verb) (key : Option Key) : Option FaultRule :=
  s.rules.find? fun rule => rule.verb = verb ∧ rule.key = key

/-- The fault that strikes a request. -/
def fault? (s : Faulty σ) (r : Request) : Option Fault :=
  ((s.rule? r.verb (some r.key)).or (s.rule? r.verb none)).map FaultRule.fault

/-- Whether one more connection would be one too many. -/
def isExhausted (s : Faulty σ) : Bool :=
  match s.limit with
  | some limit => limit ≤ s.attempts
  | none => false

end Faulty

namespace Backend

variable {σ γ : Type}

def faulty (b : Backend σ γ) : Backend (Faulty σ) γ where
  describe := b.describe
  connect s :=
    let counted := { s with attempts := s.attempts + 1 }
    if s.isExhausted then pure (.error (.connection "too many connections"), counted)
    else do
      let (opened, store) ← b.connect s.store
      return (opened, { counted with store })
  call r c s :=
    match s.fault? r with
    | some fault => pure (fault.reply, c, s)
    | none => do
      let (reply, c, store) ← b.call r c s.store
      return (reply, c, { s with store })

end Backend

end CacheAside
