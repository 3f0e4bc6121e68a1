import Mathlib.Data.List.Induction
import Mathlib.Data.List.TakeWhile
import CacheAside.Url.Basic
import CacheAside.Proofs.Text.Form

/-!
# Credentials in a URL

Two URLs that differ only where credentials stand, before the host or in the parameters of the
query, are read alike: the parts that are no credentials are the same, if there are any. Before the
host this is `Url.anonymous_of_login`, and in the query `Url.exists_asking`. Credentials before the
host can keep a URL from being read, and then nothing is said; those in the query cannot. Whether
there is a query at all makes no difference to what is in front of it (`Url.exists_asked`).
-/

namespace CacheAside.Url

variable {p : Char → Bool} {scheme cs ds i rest front tail : List Char} {c : Char}
  {u v v' : Url} {s s' : String}

/-! ## Cleaning -/

/-- Whether a character is no tab and no line end. -/
def isKept (c : Char) : Bool := c ≠ '\t' ∧ c ≠ '\n' ∧ c ≠ '\r'

/-- What is left of a text without the blanks at its end and without tabs and line ends. -/
def tidied (cs : List Char) : List Char := (cs.reverse.dropWhile (· ≤ ' ')).reverse.filter isKept

theorem isKept_of_seen (seen : ' ' < c) : isKept c = true := by
  have apart : ∀ d ∈ ['\t', '\n', '\r'], c ≠ d := by
    rintro d member rfl
    simp only [List.mem_cons, List.not_mem_nil, or_false] at member
    rcases member with rfl | rfl | rfl <;> exact absurd seen (by decide)
  simp_all [isKept]

/-- Cleaning does not reach across a character that is no blank. -/
theorem tidied_append (seen : ' ' < c) (cs ds : List Char) :
    tidied (cs ++ c :: ds) = cs.filter isKept ++ c :: tidied ds := by
  have stops : (c :: cs.reverse).dropWhile (· ≤ ' ') = c :: cs.reverse :=
    List.dropWhile_cons_of_neg (by simpa using seen)
  unfold tidied
  rw [List.reverse_append, List.reverse_cons, List.append_assoc, List.singleton_append,
    List.dropWhile_append, stops]
  split
  · next none =>
      rw [List.isEmpty_iff] at none
      simp [none, isKept_of_seen seen]
  · simp [isKept_of_seen seen]

theorem seen_of_isSchemeChar (schemed : isSchemeChar c = true) : ' ' < c := by
  have blanks : ∀ n ≤ 32, isSchemeChar (Char.ofNat n) = false := by decide
  refine Nat.lt_of_not_le fun blank => ?_
  have other := blanks c.toNat blank
  rw [Char.ofNat_toNat, schemed] at other
  cases other

theorem takeWhile_scheme (schemed : ∀ c ∈ scheme, isSchemeChar c = true) (rest : List Char) :
    (scheme ++ ':' :: rest).takeWhile isSchemeChar = scheme := by
  rw [List.takeWhile_append_of_pos schemed]
  exact List.append_nil scheme

/-- A text that starts with a scheme and its colon has this scheme. -/
theorem scheme_of_startsWith {start : String} (schemed : ∀ c ∈ scheme, isSchemeChar c = true)
    (written : start.toList = scheme ++ ':' :: rest) (starts : s.startsWith start = true) :
    s.toList.takeWhile isSchemeChar = scheme := by
  obtain ⟨others, same⟩ := String.startsWith_string_iff.mp starts
  rw [← same, written, List.append_assoc, List.cons_append]
  exact takeWhile_scheme schemed _

/-- What follows the scheme is cleaned. -/
theorem cleaned_of_scheme (schemed : ∀ c ∈ scheme, isSchemeChar c = true)
    (split : s.toList = scheme ++ ':' :: rest) : cleaned s = scheme ++ ':' :: tidied rest := by
  have visible : s.toList.dropWhile (· ≤ ' ') = s.toList := by
    rw [split]
    cases scheme with
    | nil => exact List.dropWhile_cons_of_neg (by decide)
    | cons c scheme =>
        have seen := seen_of_isSchemeChar (schemed c List.mem_cons_self)
        exact List.dropWhile_cons_of_neg (by simpa using seen)
  have kept : scheme.filter isKept = scheme := List.filter_eq_self.mpr fun c member =>
    isKept_of_seen (seen_of_isSchemeChar (schemed c member))
  have tidy : cleaned s = tidied (s.toList.dropWhile (· ≤ ' ')) := rfl
  rw [tidy, visible, split, tidied_append (by decide), kept]

/-- Reads what follows the scheme and its colon. -/
def withRest? (u : Url) (cs : List Char) : Option Url :=
  match cs with
  | '/' :: '/' :: rest => u.withAuthority? rest
  | rest => some (u.withTail rest)

/-- What follows the scheme is read with that scheme. -/
theorem ofString?_eq (schemed : ∀ c ∈ scheme, isSchemeChar c = true)
    (split : s.toList = scheme ++ ':' :: rest) :
    ofString? s = if scheme.head?.all (!·.isAlpha) then none
      else ({ scheme := String.ofList (scheme.map Char.toLower) } : Url).withRest?
        (tidied rest) := by
  have dropped : (scheme ++ ':' :: tidied rest).dropWhile isSchemeChar = ':' :: tidied rest := by
    rw [List.dropWhile_append_of_pos schemed]
    rfl
  unfold ofString? withRest?
  dsimp only
  rw [cleaned_of_scheme schemed split, takeWhile_scheme schemed, dropped]
  split
  · rfl
  · split <;> simp_all

theorem ofString?_of_scheme (schemed : ∀ c ∈ scheme, isSchemeChar c = true)
    (split : s.toList = scheme ++ ':' :: '/' :: '/' :: rest) :
    ofString? s = if scheme.head?.all (!·.isAlpha) then none
      else ({ scheme := String.ofList (scheme.map Char.toLower) } : Url).withAuthority?
        (tidied rest) := by
  have slash (ds : List Char) : tidied ('/' :: ds) = '/' :: tidied ds :=
    tidied_append (by decide) [] ds
  rw [ofString?_eq schemed split, slash, slash]
  rfl

/-! ## Before the host -/

/-- The URL without its credentials. -/
def anonymous (u : Url) : Url := { u with username := "", password := none }

theorem anonymous_withTail (u : Url) (cs : List Char) :
    (u.withTail cs).anonymous = u.anonymous.withTail cs := by
  unfold withTail
  dsimp only
  split <;> rfl

/-- A URL that can be read with credentials can be read without them, to the same effect. -/
theorem withHost?_anonymous (read : u.withHost? cs rest = some v) :
    u.anonymous.withHost? cs rest = some v.anonymous := by
  unfold withHost? at read ⊢
  generalize splitHost false cs = parts at read ⊢
  obtain ⟨host, port⟩ := parts
  dsimp only at read ⊢
  by_cases none : host.isEmpty
  · rw [if_pos none] at read ⊢
    by_cases bare : port.isEmpty && u.username = "" && u.password.isNone
    · rw [if_pos bare] at read
      cases read
      have portless : port.isEmpty = true := by simp_all
      rw [if_pos (by simp [portless, anonymous]), anonymous_withTail]
      rfl
    · rw [if_neg bare] at read
      cases read
  · rw [if_neg none] at read ⊢
    cases ported : port? port with
    | none => simp [ported] at read
    | some found =>
        cases hosted : host? host with
        | none => simp [ported, hosted] at read
        | some h =>
            simp only [ported, hosted, Option.bind_eq_bind, Option.bind_some, Option.pure_def,
              Option.some.injEq] at read ⊢
            rw [← read, anonymous_withTail]
            rfl

/-- The text before and after the last at sign, if there is one further on. -/
theorem splitAt?_append (i cs : List Char) : splitAt? (i ++ '@' :: cs) =
    some (match splitAt? cs with
      | some (before, after) => (i ++ '@' :: before, after)
      | none => (i, cs)) := by
  induction i with
  | nil =>
      rw [List.nil_append, splitAt?]
      cases splitAt? cs <;> rfl
  | cons c i ih =>
      rw [List.cons_append, splitAt?, ih]
      cases splitAt? cs <;> rfl

/-- What follows the last at sign. -/
def afterAt (cs : List Char) : List Char :=
  match splitAt? cs with
  | some (_, after) => after
  | none => cs

/-- The last at sign is behind credentials that end in one. -/
theorem splitAt?_info (i cs : List Char) : ∃ info, splitAt? (i ++ '@' :: cs) =
    some (info, afterAt cs) := by
  rw [splitAt?_append, afterAt]
  cases splitAt? cs <;> exact ⟨_, rfl⟩

/-- What is read behind credentials would be read without them. -/
theorem withAuthority?_info (inside : ∀ c ∈ i, endsAuthority c = false)
    (read : u.withAuthority? (i ++ '@' :: cs) = some v) :
    u.anonymous.withHost? (afterAt (cs.takeWhile (!endsAuthority ·)))
      (cs.dropWhile (!endsAuthority ·)) = some v.anonymous := by
  have passes : ∀ c ∈ i, (!endsAuthority c) = true := fun c member => by rw [inside c member]; rfl
  obtain ⟨info, split⟩ := splitAt?_info i (cs.takeWhile (!endsAuthority ·))
  unfold withAuthority? at read
  dsimp only at read
  rw [List.takeWhile_append_of_pos passes, List.dropWhile_append_of_pos passes,
    List.takeWhile_cons_of_pos (by decide), List.dropWhile_cons_of_pos (by decide), split] at read
  dsimp only at read
  split at read
  · cases read
  · have bare := withHost?_anonymous read
    exact bare

/-- An authority is read, but for its credentials, as what follows its last at sign. -/
theorem withAuthority?_bare (read : u.withAuthority? cs = some v) :
    u.anonymous.withHost? (afterAt (cs.takeWhile (!endsAuthority ·)))
      (cs.dropWhile (!endsAuthority ·)) = some v.anonymous := by
  unfold withAuthority? at read
  unfold afterAt
  dsimp only at read
  cases split : splitAt? (cs.takeWhile (!endsAuthority ·)) with
  | none =>
      rw [split] at read
      exact withHost?_anonymous read
  | some found =>
      rw [split] at read
      dsimp only at read
      split at read
      · cases read
      · have bare := withHost?_anonymous read
        exact bare

/-- What can stand between the slashes and the host: nothing, or credentials and an at sign. -/
def IsLogin (l : List Char) : Prop :=
  l = [] ∨ ∃ i, (∀ c ∈ i, endsAuthority c = false) ∧ l = i ++ ['@']

/-- A URL that can be read is, but for its credentials, what is behind them. -/
theorem withHost?_of_login {l : List Char} (schemed : ∀ c ∈ scheme, isSchemeChar c = true)
    (login : IsLogin l) (split : s.toList = scheme ++ ':' :: '/' :: '/' :: (l ++ rest))
    (read : ofString? s = some v) :
    ({ scheme := String.ofList (scheme.map Char.toLower) } : Url).withHost?
      (afterAt ((tidied rest).takeWhile (!endsAuthority ·)))
      ((tidied rest).dropWhile (!endsAuthority ·)) = some v.anonymous := by
  rw [ofString?_of_scheme schemed split] at read
  split at read
  · cases read
  · rcases login with rfl | ⟨i, inside, rfl⟩
    · exact withAuthority?_bare read
    · have clean : ∀ c ∈ i.filter isKept, endsAuthority c = false :=
        fun c member => inside c (List.mem_filter.mp member).1
      rw [List.append_assoc, List.singleton_append, tidied_append (by decide)] at read
      exact withAuthority?_info clean read

/-- Two URLs that differ in the credentials in front of the host are the same without them, if both
can be read. -/
theorem anonymous_of_login {l l' : List Char} (schemed : ∀ c ∈ scheme, isSchemeChar c = true)
    (login : IsLogin l) (login' : IsLogin l')
    (split : s.toList = scheme ++ ':' :: '/' :: '/' :: (l ++ rest))
    (split' : s'.toList = scheme ++ ':' :: '/' :: '/' :: (l' ++ rest))
    (read : ofString? s = some v) (read' : ofString? s' = some v') :
    v'.anonymous = v.anonymous := by
  have bare := withHost?_of_login schemed login split read
  have bare' := withHost?_of_login schemed login' split' read'
  exact Option.some.inj (bare'.symm.trans bare)

/-! ## In the query -/

/-- The URL with the query that a row of characters begins with. -/
def asking (q : List Char) (u : Url) : Url :=
  { u with query := some (String.ofList (q.takeWhile (· ≠ '#'))) }

/-- The URL with the query that follows the path, if there is one. -/
def asked (tail : List Char) (u : Url) : Url :=
  { u with query := match tail with
      | '?' :: q => some (String.ofList (q.takeWhile (· ≠ '#')))
      | _ => none }

/-- Where the tail stops a search, it is left over whole. -/
theorem stops (ends : ∀ c ∈ tail.head?, ¬ p c = true) (cs : List Char) :
    (cs ++ tail).takeWhile p = cs.takeWhile p ∧
      (cs ++ tail).dropWhile p = cs.dropWhile p ++ tail := by
  induction cs with
  | nil =>
      cases tail with
      | nil => exact ⟨rfl, rfl⟩
      | cons c tail => simp [ends c rfl]
  | cons d cs ih =>
      by_cases goes : p d = true
      · simp [goes, ih]
      · simp [goes]

/-- What follows the path has no part in it. -/
theorem withTail_asked (path : ∀ c ∈ cs, endsPath c = false)
    (ends : ∀ c ∈ tail.head?, endsPath c = true) (u : Url) :
    u.withTail (cs ++ tail) = (u.withTail cs).asked tail := by
  have passes : ∀ c ∈ cs, (!endsPath c) = true := fun c member => by rw [path c member]; rfl
  have taken : (cs ++ []).takeWhile (!endsPath ·) = cs ++ [] :=
    List.takeWhile_append_of_pos passes
  have dropped : (cs ++ []).dropWhile (!endsPath ·) = [] := List.dropWhile_append_of_pos passes
  rw [List.append_nil] at taken dropped
  obtain ⟨taken', dropped'⟩ :=
    stops (p := (!endsPath ·)) (fun c first => by simp [ends c first]) cs
  unfold withTail
  dsimp only
  rw [taken', dropped', taken, dropped, List.nil_append]
  cases cs with
  | nil => rfl
  | cons c cs =>
      dsimp only
      split <;> rfl

theorem mem_of_splitHost (isInside : Bool) (cs : List Char) :
    ∀ c ∈ (splitHost isInside cs).2, c ∈ cs := by
  induction cs generalizing isInside with
  | nil => nofun
  | cons d cs ih =>
      intro c member
      unfold splitHost at member
      split at member
      · exact member
      · exact List.mem_cons_of_mem d (ih _ c member)

/-- What a port leaves of a text was there before. -/
theorem mem_of_port? {port : Option Nat} (read : port? cs = some (port, rest)) :
    ∀ c ∈ rest, c ∈ cs := by
  unfold port? at read
  split at read
  · next cs =>
      have left : rest = cs.dropWhile Char.isDigit := by
        dsimp only at read
        split at read
        · split at read
          · cases read
            rfl
          · obtain ⟨n, -, found⟩ := Option.map_eq_some_iff.mp read
            cases found
            rfl
        · cases read
      subst left
      exact fun c member => List.mem_cons_of_mem ':' ((List.dropWhile_suffix _).subset member)
  · cases read
    exact fun c member => member

/-- The host is read without looking at what follows the path. -/
theorem withHost?_asked (host : ∀ c ∈ cs, endsPath c = false) (path : ∀ c ∈ ds, endsPath c = false)
    (ends : ∀ c ∈ tail.head?, endsPath c = true) (u : Url) :
    u.withHost? cs (ds ++ tail) = (u.withHost? cs ds).map (asked tail) := by
  have behind := mem_of_splitHost false cs
  unfold withHost?
  generalize splitHost false cs = parts at behind ⊢
  obtain ⟨name, port⟩ := parts
  dsimp only at behind ⊢
  split
  · split
    · exact congrArg some (withTail_asked path ends u)
    · rfl
  · cases ported : port? port with
    | none => rfl
    | some found =>
        obtain ⟨number, before⟩ := found
        have whole : ∀ c ∈ before ++ ds, endsPath c = false := by
          intro c member
          rcases List.mem_append.mp member with first | second
          · exact host c (behind c (mem_of_port? ported c first))
          · exact path c second
        cases hosted : host? name with
        | none => rfl
        | some h =>
            simp only [Option.bind_eq_bind, Option.bind_some, Option.pure_def, Option.map_some]
            rw [← List.append_assoc, withTail_asked whole ends]

theorem mem_of_splitAt? {before after : List Char} (split : splitAt? cs = some (before, after)) :
    ∀ c ∈ after, c ∈ cs := by
  induction cs generalizing before with
  | nil => cases split
  | cons d cs ih =>
      intro c member
      rw [splitAt?] at split
      cases later : splitAt? cs with
      | some found =>
          obtain ⟨first, last⟩ := found
          rw [later] at split
          cases split
          exact List.mem_cons_of_mem d (ih later c member)
      | none =>
          rw [later] at split
          by_cases mark : d = '@'
          · rw [if_pos mark] at split
            cases split
            exact List.mem_cons_of_mem d member
          · rw [if_neg mark] at split
            cases split

theorem endsAuthority_of_endsPath (ends : endsPath c = true) : endsAuthority c = true := by
  unfold endsPath at ends
  unfold endsAuthority
  rw [Bool.or_assoc, ends, Bool.or_true]

theorem stops_authority (ends : ∀ c ∈ tail.head?, endsPath c = true) (front : List Char) :
    (front ++ tail).takeWhile (!endsAuthority ·) = front.takeWhile (!endsAuthority ·) ∧
      (front ++ tail).dropWhile (!endsAuthority ·) =
        front.dropWhile (!endsAuthority ·) ++ tail :=
  stops (fun c first => by simp [endsAuthority_of_endsPath (ends c first)]) front

/-- Everything in front of the query is read without looking at the query. -/
theorem withAuthority?_query (path : ∀ c ∈ front, endsPath c = false) (u : Url) :
    ∃ found : Option Url, ∀ q, u.withAuthority? (front ++ '?' :: q) = found.map (asking q) := by
  have mark (q : List Char) : ∀ c ∈ ('?' :: q).head?, endsPath c = true := by
    rintro c ⟨⟩
    rfl
  have ends (q : List Char) := stops_authority (mark q) front
  have host : ∀ c ∈ front.takeWhile (!endsAuthority ·), endsPath c = false :=
    fun c member => path c ((List.takeWhile_prefix _).subset member)
  have rest : ∀ c ∈ front.dropWhile (!endsAuthority ·), endsPath c = false :=
    fun c member => path c ((List.dropWhile_suffix _).subset member)
  unfold withAuthority?
  dsimp only
  simp only [ends]
  generalize front.takeWhile (!endsAuthority ·) = authority at host
  cases split : splitAt? authority with
  | none => exact ⟨_, fun q => withHost?_asked host rest (mark q) u⟩
  | some found =>
      obtain ⟨info, hostPort⟩ := found
      have name : ∀ c ∈ hostPort, endsPath c = false :=
        fun c member => host c (mem_of_splitAt? split c member)
      dsimp only
      by_cases nothing : info.isEmpty && hostPort.isEmpty
      · exact ⟨none, fun q => if_pos (by simpa using nothing)⟩
      · let named : Url :=
          { u with username := (credentials info).1, password := (credentials info).2 }
        refine ⟨named.withHost? hostPort (front.dropWhile (!endsAuthority ·)), fun q => ?_⟩
        rw [if_neg (by simpa using nothing)]
        exact withHost?_asked name rest (mark q) _

/-- What can be read with something behind the path can be read without it, to the same effect. -/
theorem withAuthority?_asked (path : ∀ c ∈ front, endsPath c = false)
    (ends : ∀ c ∈ tail.head?, endsPath c = true)
    (read : u.withAuthority? (front ++ tail) = some v) :
    ∃ w, u.withAuthority? front = some w ∧ w.asked tail = v := by
  obtain ⟨taken, dropped⟩ := stops_authority ends front
  have host : ∀ c ∈ front.takeWhile (!endsAuthority ·), endsPath c = false :=
    fun c member => path c ((List.takeWhile_prefix _).subset member)
  have rest : ∀ c ∈ front.dropWhile (!endsAuthority ·), endsPath c = false :=
    fun c member => path c ((List.dropWhile_suffix _).subset member)
  unfold withAuthority? at read ⊢
  dsimp only at read ⊢
  rw [taken, dropped] at read
  generalize front.takeWhile (!endsAuthority ·) = authority at host read
  generalize front.dropWhile (!endsAuthority ·) = left at rest read
  cases split : splitAt? authority with
  | none =>
      rw [split] at read
      dsimp only at read
      rw [withHost?_asked host rest ends] at read
      exact Option.map_eq_some_iff.mp read
  | some found =>
      obtain ⟨info, hostPort⟩ := found
      have name : ∀ c ∈ hostPort, endsPath c = false :=
        fun c member => host c (mem_of_splitAt? split c member)
      rw [split] at read
      dsimp only at read ⊢
      split at read
      · cases read
      · next allowed =>
          rw [withHost?_asked name rest ends] at read
          rw [if_neg]
          · exact Option.map_eq_some_iff.mp read
          · intro nothing
            simp_all

theorem withRest?_asked (path : ∀ c ∈ cs, endsPath c = false)
    (ends : ∀ c ∈ tail.head?, endsPath c = true) (read : u.withRest? (cs ++ tail) = some v) :
    ∃ w, u.withRest? cs = some w ∧ w.asked tail = v := by
  by_cases slashes : ∃ front, cs = '/' :: '/' :: front
  · obtain ⟨front, rfl⟩ := slashes
    have front : ∀ c ∈ front, endsPath c = false :=
      fun c member => path c (List.mem_cons_of_mem _ (List.mem_cons_of_mem _ member))
    exact withAuthority?_asked front ends read
  · have apart : ∀ front, cs ++ tail ≠ '/' :: '/' :: front := by
      intro front same
      rcases cs with _ | ⟨c, _ | ⟨d, cs⟩⟩
      · cases ends '/' (congrArg List.head? same)
      · cases ends '/' (congrArg List.head? (List.cons.inj same).2)
      · cases same
        exact slashes ⟨cs, rfl⟩
    have plain (cs : List Char) (apart : ∀ front, cs ≠ '/' :: '/' :: front) :
        u.withRest? cs = some (u.withTail cs) := by
      unfold withRest?
      split
      · exact absurd rfl (apart _)
      · rfl
    rw [plain _ apart, withTail_asked path ends] at read
    exact ⟨_, plain cs (not_exists.mp slashes), Option.some.inj read⟩

/-- Two URLs that differ in the query are the same but for the query, and read or not alike. -/
theorem exists_asking (schemed : ∀ c ∈ scheme, isSchemeChar c = true)
    (path : ∀ c ∈ front, endsPath c = false) :
    ∃ found : Option Url, ∀ s q, s.toList = scheme ++ ':' :: '/' :: '/' :: (front ++ '?' :: q) →
      ofString? s = found.map (asking (tidied q)) := by
  have clean : ∀ c ∈ front.filter isKept, endsPath c = false :=
    fun c member => path c (List.mem_filter.mp member).1
  by_cases lettered : scheme.head?.all (!·.isAlpha)
  · refine ⟨none, fun s q split => ?_⟩
    rw [ofString?_of_scheme schemed split, if_pos lettered]
    rfl
  · obtain ⟨found, reads⟩ := withAuthority?_query clean
      { scheme := String.ofList (scheme.map Char.toLower) }
    refine ⟨found, fun s q split => ?_⟩
    rw [ofString?_of_scheme schemed split, if_neg lettered, tidied_append (by decide)]
    exact reads _

/-! ## With a query and without -/

/-- What can follow the path: a query or a fragment, or blanks that are not part of the URL. -/
def IsTail (tail : List Char) : Prop :=
  (∀ c ∈ tail, c ≤ ' ') ∨ ∃ c rest, tail = c :: rest ∧ endsPath c = true

theorem tidied_blanks (blank : ∀ c ∈ tail, c ≤ ' ') : tidied tail = [] := by
  unfold tidied
  rw [List.dropWhile_eq_nil_iff.mpr]
  · rfl
  · exact fun c member => decide_eq_true (blank c (List.mem_reverse.mp member))

/-- Blanks behind a text are dropped, and no others if what is kept of the text does not end in
one. -/
theorem tidied_append_blanks (blank : ∀ c ∈ tail, c ≤ ' ')
    (solid : ∀ c ∈ (cs.filter isKept).getLast?, ' ' < c) :
    tidied (cs ++ tail) = cs.filter isKept := by
  -- From the end: tabs and line ends join the blanks up to the first character that is kept.
  induction cs using List.reverseRecOn generalizing tail with
  | nil => exact tidied_blanks blank
  | append_singleton cs d ih =>
      rw [List.append_assoc, List.singleton_append]
      by_cases kept : isKept d = true
      · rw [List.filter_append, List.filter_cons_of_pos kept, List.filter_nil] at solid ⊢
        have seen : ' ' < d := solid d List.getLast?_concat
        rw [tidied_append seen, tidied_blanks blank]
      · rw [List.filter_append, List.filter_cons_of_neg kept, List.filter_nil, List.append_nil]
          at solid ⊢
        have unseen : d ≤ ' ' := Nat.le_of_not_lt fun seen => kept (isKept_of_seen seen)
        exact ih (List.forall_mem_cons.mpr ⟨unseen, blank⟩) solid

/-- Blanks at the end are dropped, and belong to the path only if something follows them. -/
theorem tidied_tail (trailing : IsTail tail)
    (solid : (∀ c ∈ tail, c ≤ ' ') → ∀ c ∈ (cs.filter isKept).getLast?, ' ' < c) :
    ∃ rest, (∀ c ∈ rest.head?, endsPath c = true) ∧
      tidied (cs ++ tail) = cs.filter isKept ++ rest := by
  rcases trailing with blank | ⟨c, rest, rfl, ends⟩
  · refine ⟨[], nofun, ?_⟩
    rw [List.append_nil, tidied_append_blanks blank (solid blank)]
  · have seen : ' ' < c := by
      unfold endsPath at ends
      simp only [Bool.or_eq_true, decide_eq_true_eq] at ends
      rcases ends with rfl | rfl <;> decide
    refine ⟨c :: tidied rest, ?_, tidied_append seen cs rest⟩
    rintro d ⟨⟩
    exact ends

/-- Whatever follows the path, URLs that can be read are the same without it. -/
theorem exists_asked (schemed : ∀ c ∈ scheme, isSchemeChar c = true)
    (path : ∀ c ∈ cs, endsPath c = false) (trailing : IsTail tail)
    (solid : (∀ c ∈ tail, c ≤ ' ') → ∀ c ∈ (cs.filter isKept).getLast?, ' ' < c)
    (split : s.toList = scheme ++ ':' :: (cs ++ tail)) (read : ofString? s = some v) :
    ∃ w rest, ({ scheme := String.ofList (scheme.map Char.toLower) } : Url).withRest?
      (cs.filter isKept) = some w ∧ w.asked rest = v := by
  have clean : ∀ c ∈ cs.filter isKept, endsPath c = false :=
    fun c member => path c (List.mem_filter.mp member).1
  obtain ⟨rest, ends, tidy⟩ := tidied_tail trailing solid
  rw [ofString?_eq schemed split, tidy] at read
  split at read
  · cases read
  · obtain ⟨w, found, same⟩ := withRest?_asked clean ends read
    exact ⟨w, rest, found, same⟩

end CacheAside.Url
