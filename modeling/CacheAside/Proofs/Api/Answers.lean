import CacheAside.Api.Router
import CacheAside.Proofs.Api.Decoding
import CacheAside.Proofs.Json.Unambiguity
import CacheAside.Proofs.Json.Writing

/-!
# Answers read back

The answer to a read is the body of a write of the same pair, and the answer that carries an error
spells its message and nothing else, whatever the texts are. No answer holds a raw control
character: `Body.answers_read_back`. What is said of control characters is said of every object that
can be written (`Json.clean_object`), and so of every answer of the router (`Api.clean_handle`).
-/

namespace CacheAside

/-! ## Texts without control characters -/

namespace Json

/-- No character of the text lies below U+0020. -/
def Clean (s : String) : Prop := ∀ c ∈ s.toList, 0x20 ≤ c.toNat

instance (s : String) : Decidable (Clean s) :=
  List.decidableBAll (fun c : Char => 0x20 ≤ c.toNat) s.toList

variable {s t : String} {cs : List Char}

theorem clean_append (first : Clean s) (second : Clean t) : Clean (s ++ t) := by
  intro c member
  rw [String.toList_append] at member
  exact (List.mem_append.mp member).elim (first c) (second c)

theorem clean_ofList (each : ∀ c ∈ cs, 0x20 ≤ c.toNat) : Clean (String.ofList cs) := by
  intro c member
  rw [String.toList_ofList] at member
  exact each c member

theorem clean_intercalate {mark : String} (marked : Clean mark) {parts : List String}
    (each : ∀ s ∈ parts, Clean s) : Clean (mark.intercalate parts) := by
  induction parts with
  | nil =>
      rw [String.intercalate_nil]
      nofun
  | cons s parts ih =>
      have later : Clean (mark.intercalate parts) :=
        ih fun s member => each s (List.mem_cons_of_mem _ member)
      have here : Clean s := each s List.mem_cons_self
      cases parts with
      | nil => rwa [String.intercalate_singleton]
      | cons s' parts =>
          rw [String.intercalate_cons_cons]
          exact clean_append (clean_append here marked) later

/-- A digit of any base, and what stands in for a digit beyond them. -/
theorem clean_digitChar (n : Nat) : 0x20 ≤ (Nat.digitChar n).toNat := by
  have digits : ∀ n < 36, 0x20 ≤ (Nat.digitChar n).toNat := by decide
  by_cases small : n < 36
  · exact digits n small
  · have beyond : Nat.digitChar n = '*' := by
      unfold Nat.digitChar
      repeat rw [if_neg (by omega)]
    rw [beyond]
    decide

theorem clean_toString (n : Nat) : Clean (toString n) := by
  refine clean_ofList fun c member => ?_
  have digit : c.isDigit = true := Nat.isDigit_of_mem_toDigits (by decide) (by decide) member
  have known := mem_digits digit
  simp only [List.mem_cons, List.not_mem_nil, or_false] at known
  rcases known with rfl | rfl | rfl | rfl | rfl | rfl | rfl | rfl | rfl | rfl <;> decide

/-- An escape is written without control characters, whatever it stands for. -/
theorem clean_escape (c : Char) : ∀ d ∈ escape c, 0x20 ≤ d.toNat := by
  intro d member
  unfold escape at member
  cases short : shortEscape c with
  | some e =>
      have letters : ∀ p ∈ shortEscapes, 0x20 ≤ p.1.toNat := by decide
      simp only [short, List.mem_cons, List.not_mem_nil, or_false] at member
      rcases member with rfl | rfl
      · decide
      · exact letters _ (shortEscape_mem short)
  | none =>
      simp only [short] at member
      by_cases control : c.toNat < 0x20
      · simp only [if_pos control, List.mem_cons, List.not_mem_nil, or_false] at member
        rcases member with rfl | rfl | rfl | rfl | rfl | rfl
        · decide
        · decide
        · decide
        · decide
        · exact clean_digitChar _
        · exact clean_digitChar _
      · rw [if_neg control, List.mem_singleton] at member
        subst member
        exact Nat.le_of_not_lt control

/-- A quoted text is clean, whatever the text is. -/
theorem clean_quote (s : String) : Clean (quote s) := by
  have mark : Clean "\"" := by decide
  refine clean_append (clean_append mark (clean_ofList fun d member => ?_)) mark
  obtain ⟨c, -, escaped⟩ := List.mem_flatMap.mp member
  exact clean_escape c d escaped

theorem clean_text (digits : List Nat) : Clean (Decimal.text digits) := by
  refine clean_ofList fun c member => ?_
  obtain ⟨n, -, rfl⟩ := List.mem_map.mp member
  exact clean_digitChar n

theorem clean_zeros (n : Nat) : Clean (Decimal.zeros n) := by
  refine clean_ofList fun c member => ?_
  rw [List.eq_of_mem_replicate member]
  decide

/-- A decimal is written without control characters in every style. -/
theorem clean_decimal (style : Notation) (d : Decimal) : Clean (d.render style) := by
  unfold Decimal.render
  dsimp only
  split
  · decide
  · split
    · split
      · exact clean_append (clean_append (by decide) (clean_zeros _)) (clean_text _)
      · split
        · exact clean_append (clean_append (clean_text _) (clean_zeros _)) (by decide)
        · exact clean_append (clean_append (clean_text _) (by decide)) (clean_text _)
    · have fraction : Clean (if d.digits.length ≤ 1 then "" else
          "." ++ Decimal.text (d.digits.drop 1)) := by
        split
        · nofun
        · exact clean_append (by decide) (clean_text _)
      have sign : Clean (if d.point - 1 < 0 then "-" else "+") := by split <;> decide
      exact clean_append (clean_append (clean_append (clean_append (clean_text _) fraction)
        (by decide)) sign) (clean_toString _)

/-- So is every scalar. -/
theorem clean_render (x : Scalar) : Clean x.render := by
  cases x with
  | text s => exact clean_quote s
  | count n => exact clean_toString n
  | rate x => exact clean_decimal rateNotation x.shortest

/-- An object holds no raw control character, whatever its members are. -/
theorem clean_object (members : List (String × Scalar)) : Clean (object members) := by
  refine clean_append (clean_append (by decide) (clean_intercalate (by decide) ?_)) (by decide)
  intro s member
  obtain ⟨m, -, rfl⟩ := List.mem_map.mp member
  exact clean_append (clean_append (clean_quote m.1) (by decide)) (clean_render m.2)

end Json

/-! ## Answers of the router -/

namespace Api

open Http (Response)
open Json (Clean clean_object)

variable {σ γ : Type}

/-- An answer to an operation is clean if its bodies of success are. -/
theorem clean_respond (key : Key) (context : String) {body : Option Value → String}
    (clean : ∀ value, Clean (body value)) (answer : Answer) :
    Clean (respond key context body answer).body := by
  unfold respond
  cases answer with
  | error e => exact clean_object _
  | ok outcome =>
      dsimp only
      cases outcome.status with
      | ok => exact clean outcome.value
      | validationError | notFound | backendError => exact clean_object _

/-- Every service answers with a clean body. -/
theorem clean_perform (b : Backend σ γ) (now : String) (r : Http.Request) (p : Pool σ γ)
    (service : Service) : Clean (perform b now r p service).value.1.body := by
  cases service with
  | write =>
      simp only [perform, write, Logged.value_bind, Logged.value_pure]
      exact clean_respond _ _ (fun _ => clean_object [("status", .text "success")]) _
  | read =>
      simp only [perform, read, Logged.value_bind, Logged.value_pure]
      exact clean_respond _ _ (fun _ => clean_object [("key", .text _), ("value", .text _)]) _
  | delete =>
      simp only [perform, delete, Logged.value_bind, Logged.value_pure]
      exact clean_respond _ _ (fun _ => clean_object [("status", .text "success")]) _
  | stats | health => exact clean_object _

/-- No answer holds a raw control character, whatever is asked and whatever becomes of it. -/
theorem clean_handle (b : Backend σ γ) (now : String) (r : Http.Request) (p : Pool σ γ) :
    Clean (handle b now r p).value.1.body := by
  have empty : Clean "" := nofun
  have routed : Clean (route b now r p).value.1.body := by
    unfold route
    dsimp only
    split
    · exact empty
    · split
      · exact clean_object _
      · split
        · exact empty
        · next service _ =>
            rw [Logged.value_bind, Logged.value_pure]
            dsimp only
            split
            · exact empty
            · exact clean_perform b now r p service
  exact routed

end Api

/-! ## Bodies read back -/

namespace Body

open Json

/-- The answer to a read is decoded as the write of its pair. -/
theorem decode_found (key : Key) (value : Value) :
    WriteBody.ofFirst? ((found key value).toList.map some) = some ⟨key, some value⟩ ∧
      WriteBody.ofWhole? ((found key value).toList.map some) = some ⟨key, some value⟩ :=
  WriteBody.decode_pair (spells_found key value).bare rfl rfl

/-- The body of an error spells an object of one member, the message. -/
theorem spells_failure (message : String) :
    Spells (.element (.object [("error", .text message)])) (failure message).toList :=
  (spells_object ("error", message) []).bare

/-- The bytes of an answer to a read are decoded, like the body of a write, to the write of the pair
that was read, and two answers are the same text only if they tell the same pair. The answer that
carries an error spells the object with its message, and no other data. Neither the objects that can
be written nor the answers of the router hold a raw control character. -/
theorem answers_read_back :
    (∀ key value,
      let symbols := Utf8.scan (Utf8.encode (found key value).toList)
      let operation (w : WriteBody) := Operation.write w.key w.value
      (WriteBody.ofWhole? symbols).map operation = some (.write key (some value)) ∧
        (WriteBody.ofFirst? symbols).map operation = some (.write key (some value))) ∧
    (∀ key value key' value',
      found key value = found key' value' ↔ key = key' ∧ value = value') ∧
    (∀ message d, Spells (.element d) (failure message).toList ↔
      d = .object [("error", .text message)]) ∧
    (∀ members, Clean (object members)) ∧
    ∀ {σ γ : Type} (b : Backend σ γ) now r p, Clean (Api.handle b now r p).value.1.body := by
  refine ⟨?_, ?_, ?_, clean_object, fun b now r p => Api.clean_handle b now r p⟩
  · intro key value symbols operation
    obtain ⟨first, whole⟩ := decode_found key value
    have scanned : symbols = (found key value).toList.map some := Utf8.scan_encode _
    rw [scanned, whole, first]
    exact ⟨rfl, rfl⟩
  · intro key value key' value'
    constructor
    · intro same
      have decoded := (decode_found key value).2
      rw [same, (decode_found key' value').2] at decoded
      cases decoded
      exact ⟨rfl, rfl⟩
    · rintro ⟨rfl, rfl⟩
      rfl
  · intro message d
    constructor
    · exact fun spells => (spells_failure message).alone d spells
    · rintro rfl
      exact spells_failure message

end Body

end CacheAside
