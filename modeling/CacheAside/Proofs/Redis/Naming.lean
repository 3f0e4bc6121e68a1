import Mathlib.Data.Bool.AllAny
import CacheAside.Proofs.Redis.Anonymity
import CacheAside.Store.Location

/-!
# What a store is called

The description of a store tells its place and its table. The place does not depend on how to log
in: it is the same for two addresses whose URLs differ in front of the host, in credentials and the
at sign after them (`Redis.LoginSwap`), and for two whose URLs differ behind the path, where the
query of a local socket names a user and a password (`Redis.TailSwap`). So are the descriptions:
`Redis.description_ignores_credentials`.

A path that ends in a blank keeps it in front of a query and loses it where the text ends there. So
behind such a path the description shows whether there is a query, though not what it says.
-/

namespace CacheAside

namespace Redis

open Url (isSchemeChar endsPath isKept IsLogin IsTail)

variable {s s' : String} {a a' : Address} {u v : Url}

/-! ## Texts that differ in credentials -/

/-- Two texts that differ in what stands between the slashes and the host: credentials and an at
sign, or nothing. -/
inductive LoginSwap (s s' : String) : Prop
  | intro {scheme l l' rest : List Char} (schemed : ∀ c ∈ scheme, isSchemeChar c = true)
      (login : IsLogin l) (login' : IsLogin l')
      (split : s.toList = scheme ++ ':' :: '/' :: '/' :: (l ++ rest))
      (split' : s'.toList = scheme ++ ':' :: '/' :: '/' :: (l' ++ rest))

/-- Two texts that differ in what follows the path: a query with any parameters, a fragment or
nothing. Blanks at the end of a text are no part of its URL, but those at the end of a path with
something behind it are. So where one of the two ends with its path, the path does not end in a
blank; tabs and line ends, which are dropped everywhere, do not count. -/
inductive TailSwap (s s' : String) : Prop
  | intro {scheme path tail tail' : List Char} (schemed : ∀ c ∈ scheme, isSchemeChar c = true)
      (inside : ∀ c ∈ path, endsPath c = false) (trailing : IsTail tail) (trailing' : IsTail tail')
      (solid : (∀ c ∈ tail, c ≤ ' ') ∨ (∀ c ∈ tail', c ≤ ' ') →
        ∀ c ∈ (path.filter isKept).getLast?, ' ' < c)
      (split : s.toList = scheme ++ ':' :: (path ++ tail))
      (split' : s'.toList = scheme ++ ':' :: (path ++ tail'))

/-! ## The place -/

/-- The place that a URL names, if it names one. -/
def placeOf (u : Url) : Option Place :=
  if u.scheme = "redis" ∨ u.scheme = "rediss" then
    u.host.map fun host => .host host.render (u.port.getD Address.defaultPort)
  else (Address.socketPath? u).map .socket

/-- The place of an address is the one that its URL names. -/
theorem place_of_ofUrl (read : ofUrl u = .ok a) : placeOf u = some a.place := by
  unfold ofUrl at read
  unfold placeOf
  split at read
  · next remote =>
      rw [if_pos remote]
      cases hosted : u.host with
      | none =>
          unfold Address.ofHostUrl at read
          rw [hosted] at read
          cases read
      | some host =>
          by_cases encrypted : u.scheme = "rediss"
          · unfold Address.ofHostUrl at read
            rw [hosted] at read
            dsimp only at read
            rw [if_pos encrypted] at read
            cases read
          · rw [ofHostUrl_eq hosted encrypted] at read
            obtain ⟨database, -, added⟩ := exists_of_bind_ok read
            obtain ⟨username, -, added⟩ := exists_of_bind_ok added
            obtain ⟨password, -, added⟩ := exists_of_bind_ok added
            cases added
            rfl
  · next near =>
      rw [if_neg near]
      split at read
      · unfold Address.ofSocketUrl at read
        cases found : Address.socketPath? u with
        | none =>
            rw [found] at read
            cases read
        | some path =>
            rw [found] at read
            dsimp only at read
            split at read
            · obtain ⟨database, -, added⟩ := exists_of_bind_ok read
              cases added
              rfl
            · cases read
              rfl
      · cases read

theorem exists_url (read : Address.ofString s = .ok a) :
    ∃ u, Url.ofString? s = some u ∧ placeOf u = some a.place := by
  rw [ofString_eq] at read
  cases found : Url.ofString? s with
  | none =>
      rw [found] at read
      cases read
  | some u =>
      rw [found] at read
      exact ⟨u, rfl, place_of_ofUrl read⟩

/-- Credentials in front of the host have no part in the place. -/
theorem LoginSwap.place (swap : LoginSwap s s') (read : Address.ofString s = .ok a)
    (read' : Address.ofString s' = .ok a') : a'.place = a.place := by
  obtain ⟨schemed, login, login', split, split'⟩ := swap
  obtain ⟨u, found, here⟩ := exists_url read
  obtain ⟨u', found', here'⟩ := exists_url read'
  have same : u'.anonymous = u.anonymous :=
    Url.anonymous_of_login schemed login login' split split' found found'
  have bare (u : Url) : placeOf u = placeOf u.anonymous := rfl
  rw [bare, same, ← bare, here] at here'
  exact (Option.some.inj here').symm

/-- What follows the path has no part in the place. -/
theorem TailSwap.place (swap : TailSwap s s') (read : Address.ofString s = .ok a)
    (read' : Address.ofString s' = .ok a') : a'.place = a.place := by
  obtain ⟨schemed, inside, trailing, trailing', solid, split, split'⟩ := swap
  obtain ⟨u, found, here⟩ := exists_url read
  obtain ⟨u', found', here'⟩ := exists_url read'
  obtain ⟨w, tail, first, rfl⟩ := Url.exists_asked schemed inside trailing (fun blank =>
    solid (.inl blank)) split found
  obtain ⟨w', tail', first', rfl⟩ := Url.exists_asked schemed inside trailing' (fun blank =>
    solid (.inr blank)) split' found'
  obtain rfl : w' = w := Option.some.inj (first'.symm.trans first)
  have bare (tail : List Char) (u : Url) : placeOf (u.asked tail) = placeOf u := rfl
  rw [bare, ← bare tail, here] at here'
  exact (Option.some.inj here').symm

/-! ## The description -/

theorem describe_of_place (same : a'.place = a.place) (table : String) :
    describe a' table = describe a table := by rw [describe, describe, same]

/-- Both texts have the scheme of the first. -/
theorem LoginSwap.scheme (swap : LoginSwap s s') :
    s'.toList.takeWhile isSchemeChar = s.toList.takeWhile isSchemeChar := by
  obtain ⟨schemed, -, -, split, split'⟩ := swap
  rw [split, split', Url.takeWhile_scheme schemed, Url.takeWhile_scheme schemed]

theorem TailSwap.scheme (swap : TailSwap s s') :
    s'.toList.takeWhile isSchemeChar = s.toList.takeWhile isSchemeChar := by
  obtain ⟨schemed, -, -, -, -, split, split'⟩ := swap
  rw [split, split', Url.takeWhile_scheme schemed, Url.takeWhile_scheme schemed]

end Redis

namespace Location

open Url (isSchemeChar)

/-- A store in memory is not named by the URL of a server. -/
theorem ofUrl_cases {url : String} {l : Location} (found : ofUrl url = .ok l) :
    (url.toList.takeWhile isSchemeChar = "memory".toList ∧ l = .memory) ∨
      url.toList.takeWhile isSchemeChar ≠ "memory".toList ∧
        ∃ a, Redis.Address.ofString url = .ok a ∧ l = .redis a := by
  unfold ofUrl at found
  split at found
  · next near =>
      cases found
      refine .inl ⟨?_, rfl⟩
      rcases near with rfl | rfl <;> decide
  · split at found
    · next remote =>
        refine .inr ⟨?_, ?_⟩
        · have named (name : String) (letters : ∀ c ∈ name.toList, isSchemeChar c = true)
              {start : String} (literal : start.toList = name.toList ++ [':', '/', '/'])
              (starts : url.startsWith start = true) :
              url.toList.takeWhile isSchemeChar = name.toList :=
            Url.scheme_of_startsWith letters literal starts
          rcases Bool.or_eq_true_iff.mp remote with plain | near
          · rw [named "redis" (List.all_eq_true.mp (by decide)) (by decide) plain]
            decide
          · rw [named "redis+unix" (List.all_eq_true.mp (by decide)) (by decide) near]
            decide
        · cases read : Redis.Address.ofString url with
          | ok a =>
              rw [read] at found
              cases found
              exact ⟨a, rfl, rfl⟩
          | error e =>
              rw [read] at found
              cases found
    · cases found

/-- The description of a location tells at most the place of the server. -/
theorem describe_congr {s s' : String} {l l' : Location}
    (scheme : s'.toList.takeWhile isSchemeChar = s.toList.takeWhile isSchemeChar)
    (place : ∀ a a', Redis.Address.ofString s = .ok a → Redis.Address.ofString s' = .ok a' →
      a'.place = a.place) (found : ofUrl s = .ok l) (found' : ofUrl s' = .ok l') :
    l'.describe = l.describe := by
  rcases ofUrl_cases found with ⟨near, rfl⟩ | ⟨far, a, read, rfl⟩
  · rcases ofUrl_cases found' with ⟨-, rfl⟩ | ⟨far', -⟩
    · rfl
    · exact absurd (scheme.trans near) far'
  · rcases ofUrl_cases found' with ⟨near', -⟩ | ⟨-, a', read', rfl⟩
    · exact absurd (scheme.symm.trans near') far
    · exact Redis.describe_of_place (place a a' read read') Redis.defaultTable

end Location

namespace Redis

variable {s s' : String}

/-- However two URLs differ in credentials: if both are those of a store, the two stores are
described alike, for each table. -/
theorem description_ignores_credentials (swap : LoginSwap s s' ∨ TailSwap s s') :
    (∀ a a', Address.ofString s = .ok a → Address.ofString s' = .ok a' →
      ∀ table, describe a' table = describe a table) ∧
    ∀ l l', Location.ofUrl s = .ok l → Location.ofUrl s' = .ok l' → l'.describe = l.describe := by
  have scheme : s'.toList.takeWhile Url.isSchemeChar = s.toList.takeWhile Url.isSchemeChar :=
    swap.elim LoginSwap.scheme TailSwap.scheme
  have place (a a' : Address) (read : Address.ofString s = .ok a)
      (read' : Address.ofString s' = .ok a') : a'.place = a.place :=
    swap.elim (fun swap => swap.place read read') (fun swap => swap.place read read')
  constructor
  · intro a a' read read' table
    exact describe_of_place (place a a' read read') table
  · intro l l' found found'
    exact Location.describe_congr scheme place found found'

/-- A password with an at sign in front of a host, and credentials in the query of a socket, next to
the same URLs without them. -/
theorem description_ignores_credentials_dropped :
    let server login := "redis://" ++ login ++ "[::1]:7000/2"
    let socket query := "redis+unix:///run/kv.sock" ++ query
    let host : Address := {
      place := .host "::1" 7000, database := 2, username := some "al", password := some "p@ss" }
    let near : Address := {
      place := .socket "/run/kv.sock", username := some "al", password := some "p@ss" }
    LoginSwap (server "al:p@ss@") (server "") ∧
      TailSwap (socket "?user=al&pass=p@ss") (socket "") ∧
      Address.ofString (server "al:p@ss@") = .ok host ∧
      Address.ofString (server "") = .ok host.anonymous ∧
      (∀ table, describe host.anonymous table = describe host table) ∧
      describe host "pairs" = "redis ::1:7000 (hash 'pairs')" ∧
      Location.ofUrl (socket "?user=al&pass=p@ss") = .ok (.redis near) ∧
      Location.ofUrl (socket "") = .ok (.redis near.anonymous) ∧
      (Location.redis near.anonymous).describe = (Location.redis near).describe ∧
      (Location.redis near).describe = "redis /run/kv.sock (hash 'kv_store')" := by
  intro server socket host near
  have all {P : Char → Prop} [DecidablePred P] {cs : List Char} (every : cs.all (P ·) = true) :
      ∀ c ∈ cs, P c := List.all_iff_forall_prop.mp every
  have login : Url.IsLogin "al:p@ss@".toList := .inr ⟨"al:p@ss".toList, all (by decide), by decide⟩
  have swap : LoginSwap (server "al:p@ss@") (server "") :=
    @LoginSwap.intro _ _ "redis".toList "al:p@ss@".toList [] "[::1]:7000/2".toList
      (all (by decide)) login (.inl rfl) (by decide +kernel) (by decide +kernel)
  have solid : ∀ c ∈ ("///run/kv.sock".toList.filter Url.isKept).getLast?, ' ' < c := by
    intro c last
    have sock : ("///run/kv.sock".toList.filter Url.isKept).getLast? = some 'k' := by decide
    cases sock.symm.trans last
    decide
  have dropped : TailSwap (socket "?user=al&pass=p@ss") (socket "") :=
    @TailSwap.intro _ _ "redis+unix".toList "///run/kv.sock".toList "?user=al&pass=p@ss".toList []
      (all (by decide)) (all (by decide)) (.inr ⟨'?', _, rfl, rfl⟩) (.inl nofun)
      (fun _ => solid) (by decide +kernel) (by decide +kernel)
  have read : Address.ofString (server "al:p@ss@") = .ok host := by decide +kernel
  have read' : Address.ofString (server "") = .ok host.anonymous := by decide +kernel
  have found : Location.ofUrl (socket "?user=al&pass=p@ss") = .ok (.redis near) := by
    decide +kernel
  have found' : Location.ofUrl (socket "") = .ok (.redis near.anonymous) := by decide +kernel
  obtain ⟨described, -⟩ := description_ignores_credentials (.inl swap)
  obtain ⟨-, located⟩ := description_ignores_credentials (.inr dropped)
  exact ⟨swap, dropped, read, read', described _ _ read read', by decide +kernel, found, found',
    located _ _ found found', by decide +kernel⟩

/-- A path that ends in a blank. With credentials in a query behind it the blank is a part of the
path, and without the query it is not, so the socket is described differently. -/
theorem description_shows_blank :
    let socket query := "redis+unix:///run/kv.sock " ++ query
    let blank : Address := {
      place := .socket "/run/kv.sock ", username := some "al", password := some "p" }
    let bare : Address := { place := .socket "/run/kv.sock" }
    Address.ofString (socket "?user=al&pass=p") = .ok blank ∧
      Address.ofString (socket "") = .ok bare ∧
      (∀ table, describe bare table ≠ describe blank table) ∧
      Location.ofUrl (socket "?user=al&pass=p") = .ok (.redis blank) ∧
      Location.ofUrl (socket "") = .ok (.redis bare) ∧
      (Location.redis blank).describe = "redis /run/kv.sock  (hash 'kv_store')" ∧
      (Location.redis bare).describe = "redis /run/kv.sock (hash 'kv_store')" := by
  intro socket blank bare
  have apart (table : String) : describe bare table ≠ describe blank table := by
    intro same
    have places : "redis /run/kv.sock (hash '" = "redis /run/kv.sock  (hash '" :=
      (String.append_left_inj table).mp ((String.append_left_inj "')").mp same)
    exact absurd places (by decide)
  exact ⟨by decide +kernel, by decide +kernel, apart, by decide +kernel, by decide +kernel,
    by decide +kernel, by decide +kernel⟩

end Redis

end CacheAside
