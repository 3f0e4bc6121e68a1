import Mathlib.Logic.Relation
import CacheAside.Proofs.Url.Credentials
import CacheAside.Redis.Session

/-!
# Addresses without credentials

Where a Redis server is does not depend on how to log in: two URLs that differ only in credentials,
`Redis.Alike`, name the same place and database if both are addresses (`Redis.Alike.anonymous`). A
store that lets both log in alike then cannot tell them apart (`Redis.backend_congr`).
-/

namespace CacheAside

/-! ## Values of parameters -/

namespace Url

variable {cs after : List Char} {c : Char}

theorem mem_of_tidied (member : c ∈ tidied cs) : c ∈ cs := by
  have kept := List.mem_reverse.mp (List.mem_filter.mp member).1
  exact List.mem_reverse.mp ((List.dropWhile_suffix _).subset kept)

/-- Cleaning makes a value of a value and leaves what follows it. -/
theorem exists_tidied_value (last : after = [] ∨ ∃ c rest, after = c :: rest ∧ c ∈ ['&', '#']) :
    ∃ tail, (tail = [] ∨ ∃ rest, tail = '&' :: rest) ∧
      ∀ value, (∀ c ∈ value, c ≠ '&' ∧ c ≠ '#') → ∃ v, '&' ∉ v ∧
        (tidied (value ++ after)).takeWhile (· ≠ '#') = v ++ tail := by
  have passes {v value : List Char} (part : ∀ c ∈ v, c ∈ value)
      (inside : ∀ c ∈ value, c ≠ '&' ∧ c ≠ '#') :
      '&' ∉ v ∧ ∀ c ∈ v, decide (c ≠ '#') = true :=
    ⟨fun member => (inside _ (part _ member)).1 rfl,
      fun c member => decide_eq_true (inside c (part c member)).2⟩
  have filtered (value : List Char) : ∀ c ∈ value.filter isKept, c ∈ value :=
    fun c member => (List.mem_filter.mp member).1
  rcases last with rfl | ⟨c, rest, rfl, mark⟩
  · refine ⟨[], .inl rfl, fun value inside => ⟨tidied value, ?_⟩⟩
    obtain ⟨whole, goes⟩ := passes (fun c => mem_of_tidied) inside
    refine ⟨whole, ?_⟩
    have taken : (tidied value ++ []).takeWhile (· ≠ '#') = tidied value ++ [] :=
      List.takeWhile_append_of_pos goes
    rw [List.append_nil] at taken
    rw [List.append_nil, List.append_nil, taken]
  · simp only [List.mem_cons, List.not_mem_nil, or_false] at mark
    rcases mark with rfl | rfl
    · refine ⟨'&' :: (tidied rest).takeWhile (· ≠ '#'), .inr ⟨_, rfl⟩, fun value inside => ?_⟩
      obtain ⟨whole, goes⟩ := passes (filtered value) inside
      refine ⟨value.filter isKept, whole, ?_⟩
      rw [tidied_append (by decide), List.takeWhile_append_of_pos goes]
      rfl
    · refine ⟨[], .inl rfl, fun value inside => ?_⟩
      obtain ⟨whole, goes⟩ := passes (filtered value) inside
      refine ⟨value.filter isKept, whole, ?_⟩
      rw [tidied_append (by decide), List.takeWhile_append_of_pos goes]
      rfl

end Url

namespace Redis

open Url (isSchemeChar endsAuthority endsPath isKept tidied asking)

variable {s s' : String} {a a' : Address} {u v : Url}

/-! ## Texts that differ in credentials -/

/-- Two texts that differ in what stands before an at sign in front of the host. -/
inductive InfoSwap (s s' : String) : Prop
  | intro {scheme i i' rest : List Char} (schemed : ∀ c ∈ scheme, isSchemeChar c = true)
      (inside : ∀ c ∈ i, endsAuthority c = false) (inside' : ∀ c ∈ i', endsAuthority c = false)
      (split : s.toList = scheme ++ ':' :: '/' :: '/' :: (i ++ '@' :: rest))
      (split' : s'.toList = scheme ++ ':' :: '/' :: '/' :: (i' ++ '@' :: rest))

/-- Two texts that differ in the value of one parameter `user` or `pass` in the query. -/
inductive ParameterSwap (s s' : String) : Prop
  | intro {scheme front before name value value' after : List Char}
      (schemed : ∀ c ∈ scheme, isSchemeChar c = true) (path : ∀ c ∈ front, endsPath c = false)
      (query : '#' ∉ before) (first : before = [] ∨ ∃ bs, before = bs ++ ['&'])
      (named : ∀ c ∈ name, c ∉ ['=', '&', '#'])
      (meant : Form.decode (name.filter isKept) ∈ ["user", "pass"])
      (inside : ∀ c ∈ value, c ≠ '&' ∧ c ≠ '#') (inside' : ∀ c ∈ value', c ≠ '&' ∧ c ≠ '#')
      (last : after = [] ∨ ∃ c rest, after = c :: rest ∧ c ∈ ['&', '#'])
      (split : s.toList = scheme ++ ':' :: '/' :: '/' ::
        (front ++ '?' :: (before ++ (name ++ '=' :: (value ++ after)))))
      (split' : s'.toList = scheme ++ ':' :: '/' :: '/' ::
        (front ++ '?' :: (before ++ (name ++ '=' :: (value' ++ after)))))

/-- Two texts of URLs that differ only in credentials, whether or not they are addresses. -/
inductive Alike (s s' : String) : Prop
  | info (swap : InfoSwap s s')
  | parameters (swaps : Relation.TransGen ParameterSwap s s')

/-! ## Addresses -/

/-- The address without its credentials. -/
def Address.anonymous (a : Address) : Address := { a with username := none, password := none }

theorem exists_of_bind_ok {ε α β : Type} {x : Except ε α} {f : α → Except ε β} {b : β}
    (done : x >>= f = .ok b) : ∃ a, x = .ok a ∧ f a = .ok b := by
  cases x with
  | error e => cases done
  | ok a => exact ⟨a, rfl, done⟩

/-- The user name of a URL, if there is one. -/
def usernameOf (u : Url) : Except AddressError (Option String) :=
  if u.username = "" then pure none else some <$> Address.credential u.username .badUsername

/-- The password of a URL, if there is one. -/
def passwordOf (u : Url) : Except AddressError (Option String) :=
  match u.password with
  | some s => some <$> Address.credential s .badPassword
  | none => pure none

/-- Adds the credentials of a URL to a place and a database. -/
def withLogin (u : Url) (place : Place) (database : Int) : Except AddressError Address :=
  usernameOf u >>= fun username => passwordOf u >>= fun password =>
    pure { place, database, username, password }

/-- A login that is accepted can be left out. -/
theorem withLogin_ok {place : Place} {database : Int}
    (added : withLogin u place database = .ok a) :
    withLogin u.anonymous place database = .ok a.anonymous := by
  obtain ⟨username, -, added⟩ := exists_of_bind_ok added
  obtain ⟨password, -, added⟩ := exists_of_bind_ok added
  cases added
  rfl

/-- The database that the path of a URL names. -/
def databaseOf (u : Url) : Except AddressError Int :=
  if Address.trimmedPath u = "" then pure 0 else Address.database? (Address.trimmedPath u)

theorem ofHostUrl_eq {host : Host} (hosted : u.host = some host) (plain : u.scheme ≠ "rediss") :
    Address.ofHostUrl u = databaseOf u >>=
      withLogin u (.host host.render (u.port.getD Address.defaultPort)) := by
  unfold Address.ofHostUrl databaseOf withLogin usernameOf passwordOf
  rw [hosted]
  dsimp only
  rw [if_neg plain]
  cases u.password <;> split <;> split <;> rfl

/-- Credentials can keep a URL from being an address, and change nothing else. -/
theorem ofHostUrl_anonymous (read : Address.ofHostUrl u = .ok a) :
    Address.ofHostUrl u.anonymous = .ok a.anonymous := by
  cases hosted : u.host with
  | none =>
      unfold Address.ofHostUrl at read
      rw [hosted] at read
      cases read
  | some host =>
      by_cases encrypted : u.scheme = "rediss"
      · unfold Address.ofHostUrl at read
        rw [hosted] at read
        dsimp only at read
        rw [if_pos encrypted] at read
        cases read
      · have bare : Address.ofHostUrl u.anonymous = databaseOf u >>=
            withLogin u.anonymous (.host host.render (u.port.getD Address.defaultPort)) :=
          ofHostUrl_eq hosted encrypted
        rw [ofHostUrl_eq hosted encrypted] at read
        obtain ⟨database, named, added⟩ := exists_of_bind_ok read
        rw [bare, named]
        exact withLogin_ok added

/-- A socket is found without looking at credentials. -/
theorem ofSocketUrl_congr (host : v.host = u.host) (path : v.path = u.path)
    (database : Form.first? "db" (Form.pairs (v.query.getD "")).reverse =
      Form.first? "db" (Form.pairs (u.query.getD "")).reverse) :
    (Address.ofSocketUrl v).map Address.anonymous =
      (Address.ofSocketUrl u).map Address.anonymous := by
  have found : Address.socketPath? v = Address.socketPath? u := by
    rw [Address.socketPath?, Address.socketPath?, host, path]
  unfold Address.ofSocketUrl
  rw [found]
  cases Address.socketPath? u with
  | none => rfl
  | some place =>
      dsimp only
      rw [database]
      cases Form.first? "db" (Form.pairs (u.query.getD "")).reverse with
      | none => rfl
      | some text =>
          dsimp only
          cases Address.database? text <;> rfl

/-- The address that a URL is, if it is one. -/
def ofUrl (u : Url) : Except AddressError Address :=
  if u.scheme = "redis" ∨ u.scheme = "rediss" then Address.ofHostUrl u
  else if u.scheme = "unix" ∨ u.scheme = "redis+unix" then Address.ofSocketUrl u
  else .error .malformed

theorem ofString_eq (s : String) : Address.ofString s =
    match Url.ofString? s with
    | none => .error .malformed
    | some u => ofUrl u := rfl

theorem ofUrl_anonymous (read : ofUrl u = .ok a) :
    (ofUrl u.anonymous).map Address.anonymous = .ok a.anonymous := by
  have scheme : u.anonymous.scheme = u.scheme := rfl
  unfold ofUrl at read ⊢
  rw [scheme]
  split at read
  · next host =>
      rw [if_pos host, ofHostUrl_anonymous read]
      rfl
  · next other =>
      have socket : Address.ofSocketUrl u.anonymous = Address.ofSocketUrl u := rfl
      rw [if_neg other]
      split at read
      · next local_ =>
          rw [if_pos local_, socket, read]
          rfl
      · cases read

/-! ## Two addresses -/

/-- Two addresses that differ in front of the host are the same without credentials. -/
theorem InfoSwap.anonymous (swap : InfoSwap s s') (read : Address.ofString s = .ok a)
    (read' : Address.ofString s' = .ok a') : a'.anonymous = a.anonymous := by
  obtain @⟨scheme, i, i', rest, schemed, inside, inside', split, split'⟩ := swap
  rw [ofString_eq] at read read'
  cases found : Url.ofString? s with
  | none =>
      rw [found] at read
      cases read
  | some u =>
      cases found' : Url.ofString? s' with
      | none =>
          rw [found'] at read'
          cases read'
      | some u' =>
          rw [found] at read
          rw [found'] at read'
          have login {i : List Char} (inside : ∀ c ∈ i, endsAuthority c = false) :
              Url.IsLogin (i ++ ['@']) := .inr ⟨i, inside, rfl⟩
          rw [List.append_cons i] at split
          rw [List.append_cons i'] at split'
          have same : u'.anonymous = u.anonymous := Url.anonymous_of_login schemed (login inside)
            (login inside') split split' found found'
          have bare := ofUrl_anonymous read
          have bare' := ofUrl_anonymous read'
          rw [same, bare] at bare'
          exact (Except.ok.inj bare').symm

/-- A parameter of another name does not hide one. -/
theorem lookup_past {name other value : String} (apart : name ≠ other)
    (front back : List (String × String)) :
    (front ++ (other, value) :: back).lookup name = (front ++ back).lookup name := by
  rw [List.lookup_append, List.lookup_append, List.lookup_cons, beq_false_of_ne apart]

/-- The value of a parameter that holds credentials has no part in the choice of the database. -/
theorem exists_database {before name after : List Char} (query : '#' ∉ before)
    (first : before = [] ∨ ∃ bs, before = bs ++ ['&']) (named : ∀ c ∈ name, c ∉ ['=', '&', '#'])
    (meant : Form.decode (name.filter isKept) ∈ ["user", "pass"])
    (last : after = [] ∨ ∃ c rest, after = c :: rest ∧ c ∈ ['&', '#']) :
    ∃ database, ∀ value, (∀ c ∈ value, c ≠ '&' ∧ c ≠ '#') →
      Form.first? "db" (Form.pairs (String.ofList ((tidied (before ++ (name ++ '=' ::
        (value ++ after)))).takeWhile (· ≠ '#')))).reverse = database := by
  obtain ⟨tail, last', values⟩ := Url.exists_tidied_value last
  have first' : before.filter isKept = [] ∨ ∃ bs, before.filter isKept = bs ++ ['&'] := by
    rcases first with rfl | ⟨bs, rfl⟩
    · exact .inl rfl
    · exact .inr ⟨bs.filter isKept, List.filter_append ..⟩
  have apart : ∀ c ∈ name.filter isKept, c ∉ ['=', '&', '#'] :=
    fun c member => named c (List.mem_filter.mp member).1
  have named' : ∀ c ∈ name.filter isKept, c ≠ '=' ∧ c ≠ '&' := by
    intro c member
    have other := apart c member
    simp only [List.mem_cons, List.not_mem_nil, or_false, not_or] at other
    exact ⟨other.1, other.2.1⟩
  obtain ⟨front, back, pairs⟩ := Form.pairs_swap first' named' last'
  refine ⟨(back.reverse ++ front.reverse).lookup "db", fun value inside => ?_⟩
  obtain ⟨v, whole, taken⟩ := values value inside
  have goes : ∀ c ∈ before.filter isKept ++ name.filter isKept, decide (c ≠ '#') = true := by
    intro c member
    refine decide_eq_true ?_
    rintro rfl
    rcases List.mem_append.mp member with early | late
    · exact query (List.mem_filter.mp early).1
    · exact apart _ late (by simp)
  have text : (tidied (before ++ (name ++ '=' :: (value ++ after)))).takeWhile (· ≠ '#') =
      before.filter isKept ++ (name.filter isKept ++ '=' :: (v ++ tail)) := by
    rw [← List.append_assoc, Url.tidied_append (by decide), List.filter_append,
      List.takeWhile_append_of_pos goes, List.takeWhile_cons_of_pos (by decide), taken,
      List.append_assoc]
  have other : "db" ≠ Form.decode (name.filter isKept) := by
    intro same
    rw [← same] at meant
    simp at meant
  rw [text, pairs v whole, Form.first?, List.reverse_append, List.reverse_cons, List.append_assoc,
    List.singleton_append, lookup_past other]

/-- Credentials in the query make no difference to the place and the database. -/
theorem ParameterSwap.anonymous (swap : ParameterSwap s s') :
    (Address.ofString s').map Address.anonymous = (Address.ofString s).map Address.anonymous := by
  obtain @⟨scheme, front, before, name, value, value', after, schemed, path, query, first, named,
    meant, inside, inside', last, split, split'⟩ := swap
  obtain ⟨found, reads⟩ := Url.exists_asking schemed path
  obtain ⟨database, chosen⟩ := exists_database query first named meant last
  have alike := (chosen value' inside').trans (chosen value inside).symm
  rw [ofString_eq, ofString_eq, reads s _ split, reads s' _ split']
  generalize tidied (before ++ (name ++ '=' :: (value ++ after))) = q at alike
  generalize tidied (before ++ (name ++ '=' :: (value' ++ after))) = q' at alike
  cases found with
  | none => rfl
  | some u =>
      have socket : (Address.ofSocketUrl (asking q' u)).map Address.anonymous =
          (Address.ofSocketUrl (asking q u)).map Address.anonymous :=
        ofSocketUrl_congr rfl rfl alike
      dsimp only [Option.map_some]
      unfold ofUrl
      have scheme (q : List Char) : (asking q u).scheme = u.scheme := rfl
      rw [scheme, scheme]
      split
      · rfl
      · split
        · exact socket
        · rfl

/-- Two addresses whose URLs differ only in credentials are the same but for credentials. -/
theorem Alike.anonymous (alike : Alike s s') (read : Address.ofString s = .ok a)
    (read' : Address.ofString s' = .ok a') : a'.anonymous = a.anonymous := by
  cases alike with
  | info swap => exact swap.anonymous read read'
  | parameters swaps =>
      have same : (Address.ofString s').map Address.anonymous =
          (Address.ofString s).map Address.anonymous := by
        clear read read'
        induction swaps with
        | single swap => exact swap.anonymous
        | tail _ swap ih => exact swap.anonymous.trans ih
      rw [read, read'] at same
      exact Except.ok.inj same

/-! ## Stores -/

variable {σ κ : Type} {t : Transport σ κ}

/-- A store that lets two addresses of one place and database log in alike treats them alike. -/
theorem backend_congr (same : a'.anonymous = a.anonymous)
    (login : ∀ connection s, authenticate t a' { connection } s =
      authenticate t a { connection } s) (table : String) :
    backend t a' table = backend t a table := by
  obtain ⟨place, database, -, -⟩ := Address.mk.inj same
  have selects : select t a' = select t a := by
    funext session s
    rw [select, select, database]
  have opens : openSession t a' = openSession t a := by
    funext s
    unfold openSession
    simp only [place, selects, login]
  have shown : describe a' table = describe a table := by rw [describe, describe, place]
  unfold backend sessions
  rw [opens, shown]

end Redis

end CacheAside
