import CacheAside.Config
import CacheAside.Proofs.Text.Encoding
import CacheAside.Proofs.Text.Numeral

/-!
# Settings read from the environment

Six variables set six fields, and what is said of one of them is said of all: a field holds what its
variable is set to, if that is a value of the field (`Variable.Reads`), and otherwise its default.
So the fields are looked at as a family indexed by the variables, `Config.entry`, and reading the
environment is one function of a variable and its own setting, `Config.entry_ofEnvironment`. From
it follows `Config.environment_is_exact`: no field is set by the variable of another, the texts that
set a field are exactly the values of that field, and settings that are written to the environment
of a process are read back.
-/

namespace CacheAside

namespace Config

/-- What a field holds. -/
inductive Entry
  | number (n : Nat)
  | text (s : String)
  deriving DecidableEq, Repr

/-- A number is written in decimal and a text as it is. -/
def Entry.render : Entry → String
  | .number n => toString n
  | .text s => s

/-- The field that a variable sets. -/
def entry (c : Config) : Variable → Entry
  | .port => .number c.port.toNat
  | .capacity => .number c.capacity.toNat
  | .workers => .number c.workers.toNat
  | .queueDepth => .number c.queueDepth.toNat
  | .storeUrl => .text c.storeUrl
  | .statsInterval => .number c.statsInterval.toNat

theorem ext_entry {c c' : Config} (same : ∀ v, c.entry v = c'.entry v) : c = c' := by
  have port : c.port = c'.port := UInt16.toNat_inj.mp (Entry.number.inj (same .port))
  have capacity : c.capacity = c'.capacity :=
    UInt64.toNat_inj.mp (Entry.number.inj (same .capacity))
  have workers : c.workers = c'.workers := UInt64.toNat_inj.mp (Entry.number.inj (same .workers))
  have queueDepth : c.queueDepth = c'.queueDepth :=
    UInt64.toNat_inj.mp (Entry.number.inj (same .queueDepth))
  have storeUrl : c.storeUrl = c'.storeUrl := Entry.text.inj (same .storeUrl)
  have statsInterval : c.statsInterval = c'.statsInterval :=
    UInt64.toNat_inj.mp (Entry.number.inj (same .statsInterval))
  cases c
  cases c'
  simp only at port capacity workers queueDepth storeUrl statsInterval
  rw [port, capacity, workers, queueDepth, storeUrl, statsInterval]

end Config

/-! ## The values of a field -/

namespace Variable

variable {v : Variable} {s : String} {e : Config.Entry}

/-- The bound of the numbers that the field of the variable can hold, if it holds numbers. -/
def bound? : Variable → Option Nat
  | .port => some (2 ^ 16)
  | .storeUrl => none
  | .capacity | .workers | .queueDepth | .statsInterval => some (2 ^ 64)

/-- The text is a value of the field: a number in decimal that fits, or any text at all where the
field holds a text. -/
inductive Reads (v : Variable) : String → Config.Entry → Prop
  | number {s : String} {n bound : Nat} (holds : v.bound? = some bound)
      (spelled : Numeral.Spells n s.toList) (fits : n < bound) : Reads v s (.number n)
  | text {s : String} (holds : v.bound? = none) : Reads v s (.text s)

/-- The value of the field that is found in a text. -/
def read? (v : Variable) (s : String) : Option Config.Entry :=
  match v.bound? with
  | some bound => (Numeral.unsigned? bound s).map .number
  | none => some (.text s)

/-- A variable is read as what its text spells. -/
theorem read?_eq_some_iff : v.read? s = some e ↔ v.Reads s e := by
  unfold read?
  constructor
  · intro found
    split at found
    · rename_i bound holds
      obtain ⟨n, read, rfl⟩ := Option.map_eq_some_iff.mp found
      obtain ⟨spelled, fits⟩ := Numeral.unsigned?_eq_some_iff.mp read
      exact .number holds spelled fits
    · rename_i holds
      obtain rfl := Option.some.inj found
      exact .text holds
  · intro reads
    cases reads with
    | number holds spelled fits =>
        rw [holds]
        have read := Numeral.unsigned?_eq_some_iff.mpr ⟨spelled, fits⟩
        exact congrArg (Option.map Config.Entry.number) read
    | text holds => rw [holds]

/-- What a field holds is a value of the field, as it is written. -/
theorem reads_entry (c : Config) (v : Variable) : v.Reads (c.entry v).render (c.entry v) := by
  cases v with
  | port => exact .number rfl (Numeral.spells_toString _) c.port.toNat_lt
  | capacity => exact .number rfl (Numeral.spells_toString _) c.capacity.toNat_lt
  | workers => exact .number rfl (Numeral.spells_toString _) c.workers.toNat_lt
  | queueDepth => exact .number rfl (Numeral.spells_toString _) c.queueDepth.toNat_lt
  | storeUrl => exact .text rfl
  | statsInterval => exact .number rfl (Numeral.spells_toString _) c.statsInterval.toNat_lt

/-- No two variables share a name. -/
theorem ofName?_name (v : Variable) : ofName? v.name = some v := by
  cases v <;> rfl

end Variable

/-! ## Reading one variable -/

namespace Environment

variable {env : Environment} {v : Variable} {bound : Nat}

/-- The variable is set to a text that is the value `e` of its field. -/
def Sets (env : Environment) (v : Variable) (e : Config.Entry) : Prop :=
  ∃ s, env v = some (.text s) ∧ v.Reads s e

theorem text?_eq_some_iff {s : String} : env.text? v = some s ↔ env v = some (.text s) := by
  unfold text? Setting.text?
  cases env v with
  | none => simp
  | some setting => cases setting <;> simp

/-- An environment sets an entry exactly if the text of its variable is read as it. -/
theorem bind_read?_eq_some_iff {e : Config.Entry} :
    (env.text? v).bind v.read? = some e ↔ env.Sets v e := by
  simp only [Option.bind_eq_some_iff, text?_eq_some_iff, Variable.read?_eq_some_iff, Sets]

/-- A number that is read is below the bound, so the type of the field holds it. -/
theorem number_lt {default : Nat} (fits : default < bound) :
    env.number v bound default < bound := by
  unfold number
  cases found : (env.text? v).bind (Numeral.unsigned? bound) with
  | none => exact fits
  | some n =>
      obtain ⟨s, -, read⟩ := Option.bind_eq_some_iff.mp found
      exact (Numeral.unsigned?_eq_some_iff.mp read).2

theorem toNat_port (env : Environment) (v : Variable) (default : UInt16) :
    (env.port v default).toNat = env.number v UInt16.size default.toNat :=
  UInt16.toNat_ofNat_of_lt' (number_lt default.toNat_lt)

theorem toNat_count (env : Environment) (v : Variable) (default : UInt64) :
    (env.count v default).toNat = env.number v UInt64.size default.toNat :=
  UInt64.toNat_ofNat_of_lt' (number_lt default.toNat_lt)

theorem number_eq_getD (holds : v.bound? = some bound) (default : Nat) :
    .number (env.number v bound default) =
      ((env.text? v).bind v.read?).getD (.number default) := by
  have read : v.read? = Option.map .number ∘ Numeral.unsigned? bound := by
    funext s
    unfold Variable.read?
    rw [holds]
    rfl
  rw [read, ← Option.map_bind, Option.getD_map]
  rfl

end Environment

namespace Config

/-- Every field is read in the same way, from its own variable. -/
theorem entry_ofEnvironment (env : Environment) (v : Variable) :
    (ofEnvironment env).entry v = ((env.text? v).bind v.read?).getD (({} : Config).entry v) := by
  have read (default : Nat) {v : Variable} {bound : Nat} (holds : v.bound? = some bound) :=
    env.number_eq_getD holds default
  cases v with
  | port => exact (congrArg Entry.number (env.toNat_port _ _)).trans (read _ rfl)
  | capacity => exact (congrArg Entry.number (env.toNat_count _ _)).trans (read _ rfl)
  | workers => exact (congrArg Entry.number (env.toNat_count _ _)).trans (read _ rfl)
  | queueDepth => exact (congrArg Entry.number (env.toNat_count _ _)).trans (read _ rfl)
  | storeUrl =>
      have read : Variable.storeUrl.read? = some ∘ Entry.text := rfl
      rw [read, ← Option.map_eq_bind]
      exact (Option.getD_map Entry.text _ _).symm
  | statsInterval => exact (congrArg Entry.number (env.toNat_count _ _)).trans (read _ rfl)

/-- An entry is what the environment sets, or the default where it sets nothing. -/
theorem entry_ofEnvironment_eq_iff {env : Environment} {v : Variable} {e : Entry} :
    (ofEnvironment env).entry v = e ↔
      env.Sets v e ∨ (∀ e', ¬ env.Sets v e') ∧ ({} : Config).entry v = e := by
  simp only [entry_ofEnvironment, ← Environment.bind_read?_eq_some_iff]
  cases (env.text? v).bind v.read? with
  | none => simp
  | some e' => simp

end Config

/-! ## The environment of a process -/

/-- The variables that are read, among all that a process has by name and in bytes. -/
def Environment.ofProcess (values : String → Option (List UInt8)) : Environment :=
  fun v => (values v.name).map Setting.ofBytes

namespace Config

/-- What a process has once every field is written to its variable. -/
def exported (c : Config) (values : String → Option (List UInt8)) (name : String) :
    Option (List UInt8) :=
  match Variable.ofName? name with
  | some v => some (Utf8.encode (c.entry v).render.toList)
  | none => values name

theorem ofProcess_exported (c : Config) (values : String → Option (List UInt8)) (v : Variable) :
    Environment.ofProcess (c.exported values) v = some (.text (c.entry v).render) := by
  have written : c.exported values v.name = some (Utf8.encode (c.entry v).render.toList) := by
    rw [exported, Variable.ofName?_name]
  rw [Environment.ofProcess, written, Option.map_some, Setting.ofBytes, Utf8.decode?_encode,
    String.ofList_toList]

/-- A configuration that is exported is loaded as it was. -/
theorem ofEnvironment_exported (c : Config) (values : String → Option (List UInt8)) :
    ofEnvironment (.ofProcess (c.exported values)) = c := by
  refine ext_entry fun v => entry_ofEnvironment_eq_iff.mpr (.inl ?_)
  exact ⟨(c.entry v).render, c.ofProcess_exported values v, Variable.reads_entry c v⟩

/-- A field depends on no variable but its own. It holds what the text of that variable is read as,
where it is a value of the field: of a number any numeral, with or without a plus sign and leading
zeros, as long as the number fits, and of the store URL the text itself. In every other case the
field has its default. So settings that are written in decimal to the environment of a process, over
whatever was there, are the settings that are read from it. -/
theorem environment_is_exact :
    (∀ (env env' : Environment) (v : Variable), env v = env' v →
      (ofEnvironment env).entry v = (ofEnvironment env').entry v) ∧
    (∀ (env : Environment) (v : Variable) (e : Entry), (ofEnvironment env).entry v = e ↔
      env.Sets v e ∨ (∀ e', ¬ env.Sets v e') ∧ ({} : Config).entry v = e) ∧
    ∀ (c : Config) (values : String → Option (List UInt8)),
      ofEnvironment (.ofProcess (c.exported values)) = c := by
  refine ⟨fun env env' v same => ?_, fun env v e => entry_ofEnvironment_eq_iff,
    ofEnvironment_exported⟩
  have text : env.text? v = env'.text? v := by rw [Environment.text?, same, Environment.text?]
  rw [entry_ofEnvironment, entry_ofEnvironment, text]

/-- The largest port behind a sign and zeros, whatever else is set, one more than the largest
capacity, and a store URL without a character. -/
theorem environment_is_exact_at_the_limits :
    let env : Environment := fun
      | .port => some (.text "+0065535")
      | .capacity => some (.text "18446744073709551616")
      | .storeUrl => some (.text "")
      | _ => some .garbled
    let other : Environment := fun v => if v = .port then env v else none
    (ofEnvironment other).entry .port = (ofEnvironment env).entry .port ∧
      (ofEnvironment env).entry .port = .number 65535 ∧
      (ofEnvironment env).entry .capacity = .number 1000 ∧
      (ofEnvironment env).entry .storeUrl = .text "" := by
  intro env other
  obtain ⟨own, exactly, -⟩ := environment_is_exact
  have found {v : Variable} {s : String} {e : Entry} (text : env v = some (.text s))
      (read : v.read? s = some e) : (ofEnvironment env).entry v = e :=
    (exactly env v e).mpr (.inl ⟨s, text, Variable.read?_eq_some_iff.mp read⟩)
  have past : ∀ e, ¬ env.Sets .capacity e := by
    rintro e ⟨s, text, reads⟩
    have unread : Variable.capacity.read? "18446744073709551616" = none := by decide
    cases text
    rw [Variable.read?_eq_some_iff.mpr reads] at unread
    cases unread
  refine ⟨own other env .port rfl, found rfl ?_, (exactly env .capacity _).mpr (.inr ⟨past, rfl⟩),
    found rfl rfl⟩
  decide

end Config

end CacheAside
