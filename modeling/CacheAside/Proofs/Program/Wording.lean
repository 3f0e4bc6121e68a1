import CacheAside.Program

/-!
# The store URL in what is written

The line of the settings and the text of a failure to find the store both quote the store URL, so
each of them tells two URLs apart: `Event.fullLine_configured_inj` and
`Program.Failure.text_ofStore_inj`. The line has the URL between texts that do not depend on it. In
the text a reason follows that may quote the URL once more, and then it is the line ends in it that
leave no room for a second reading.
-/

namespace CacheAside

/-- The settings, with the store URL between texts that do not depend on it. -/
theorem Event.settings_renamed (c : Config) : ∃ before after, ∀ url,
    settings { c with storeUrl := url } = before ++ (url ++ after) := by
  refine ⟨"port=" ++ (toString c.port.toNat ++ (", " ++ ("cache_size=" ++
    (toString c.capacity.toNat ++ (", " ++ ("workers=" ++ (toString c.workers.toNat ++
      (", " ++ ("queue_depth=" ++ (toString c.queueDepth.toNat ++ (", " ++ "store="))))))))))),
    ", " ++ ("stats_interval=" ++ (toString c.statsInterval.toNat ++ "s")), fun url => ?_⟩
  unfold settings
  simp only [String.intercalate_cons_cons, String.intercalate_singleton, String.append_assoc]

/-- The line of the settings tells two store URLs apart. -/
theorem Event.fullLine_configured_inj {c : Config} {u u' : String}
    (same : (Event.configured { c with storeUrl := u' }).fullLine =
      (Event.configured { c with storeUrl := u }).fullLine) : u' = u := by
  have line (url : String) : (Event.configured { c with storeUrl := url }).fullLine =
      "INFO" ++ " " ++ "kv_cache_server" ++ ": " ++
        ("Configuration loaded: " ++ settings { c with storeUrl := url }) := rfl
  obtain ⟨before, after, settings⟩ := settings_renamed c
  rw [line, line, String.append_right_inj, String.append_right_inj, settings, settings,
    String.append_right_inj, String.append_left_inj] at same
  exact same

namespace Program.Failure

variable {z : List Char} {u u' : String} {e e' : StoreError}

/-! ## Line ends -/

/-- The number of line ends in a text. -/
def lineEnds (cs : List Char) : Nat := cs.count '\n'

theorem lineEnds_append (cs ds : List Char) :
    lineEnds (cs ++ ds) = lineEnds cs + lineEnds ds := List.count_append

/-- A margin adds no line ends. -/
theorem lineEnds_margin {margin : List Char} (plain : lineEnds margin = 0) (cs : List Char) :
    lineEnds (('\n' :: margin).intercalate (cs.splitOnP (· == '\n'))) = lineEnds cs := by
  unfold lineEnds at *
  induction cs with
  | nil => rfl
  | cons c cs ih =>
      rw [List.splitOnP_cons_eq_if_modifyHead]
      obtain ⟨line, lines, split⟩ :=
        List.exists_cons_of_ne_nil (List.splitOnP_ne_nil (· == '\n') cs)
      rw [split] at ih ⊢
      by_cases ends : c = '\n'
      · subst ends
        rw [beq_self_eq_true, if_pos rfl, List.intercalate_cons_cons, List.nil_append,
          List.count_append, ih, List.count_cons_self, List.count_cons_self, plain, Nat.add_comm]
      · rw [beq_false_of_ne ends, if_neg Bool.false_ne_true, List.count_cons_of_ne ends,
          List.modifyHead_cons]
        cases lines with
        | nil =>
            rw [List.intercalate_singleton] at ih ⊢
            rw [List.count_cons_of_ne ends, ih]
        | cons next lines =>
            rw [List.intercalate_cons_cons] at ih ⊢
            rw [List.cons_append, List.cons_append, List.count_cons_of_ne ends, ih]

/-- The only reason of a failure has as many line ends in its entry as it has itself. -/
theorem lineEnds_entry (cause : String) :
    lineEnds (entry false 0 cause).toList = lineEnds cause.toList := by
  have lines : (((cause.toList.splitOnP (· == '\n')).map String.ofList).map String.toList) =
      cause.toList.splitOnP (· == '\n') := by
    rw [List.map_map]
    simp
  have head : lineEnds ("    " : String).toList = 0 := by decide
  have margin : ("\n" ++ "    " : String).toList = '\n' :: [' ', ' ', ' ', ' '] := by decide
  have single : entry false 0 cause = "    " ++ ("\n" ++ "    ").intercalate
      ((cause.toList.splitOnP (· == '\n')).map String.ofList) := rfl
  rw [single, String.toList_append, lineEnds_append, String.toList_intercalate, lines, head,
    margin, Nat.zero_add]
  exact lineEnds_margin (by decide) cause.toList

/-! ## A store that cannot be used -/

theorem text_ofStore (url : String) (e : StoreError) : (ofStore url e).text =
    "Error: " ++ ("unusable store url '" ++
      (url ++ ("'\n\nCaused by:\n" ++ (entry false 0 e.message ++ "\n")))) := by
  have single : (ofStore url e).causes.mapIdx
      (entry (1 < (ofStore url e).causes.length)) = [entry false 0 e.message] := rfl
  have context : (ofStore url e).context = "unusable store url '" ++ url ++ "'" := rfl
  have quoted : "'" ++ "\n\nCaused by:\n" = "'\n\nCaused by:\n" := by decide
  unfold text
  dsimp only
  rw [single, context, String.intercalate_singleton, ← quoted]
  simp only [String.append_assoc]

/-- Without a line end in it, nothing can stand before the end of the quoted URL. -/
theorem eq_nil_of_quoted {xs ys : List Char} (plain : lineEnds z = 0)
    (same : '\'' :: '\n' :: xs = z ++ '\'' :: '\n' :: ys) : z = [] := by
  match z with
  | [] => rfl
  | [c] => cases same
  | c :: d :: z =>
      cases same
      exact absurd plain (by simp [lineEnds])

/-- What is quoted of a URL cannot be read as a longer one. -/
theorem eq_of_further
    (grows : lineEnds u.toList ≤ lineEnds u'.toList →
      lineEnds e.message.toList ≤ lineEnds e'.message.toList)
    (further : u'.toList = u.toList ++ z)
    (rest : ("'\n\nCaused by:\n" ++ (entry false 0 e.message ++ "\n")).toList =
      z ++ ("'\n\nCaused by:\n" ++ (entry false 0 e'.message ++ "\n")).toList) : u' = u := by
  have more : lineEnds u'.toList = lineEnds u.toList + lineEnds z := by
    rw [further, lineEnds_append]
  have count := congrArg lineEnds rest
  simp only [String.toList_append, lineEnds_append, lineEnds_entry] at count
  have fewer := grows (by omega)
  have plain : lineEnds z = 0 := by omega
  have quoted (s : String) : ("'\n\nCaused by:\n" ++ s).toList =
      '\'' :: '\n' :: ("\nCaused by:\n".toList ++ s.toList) := by
    rw [String.toList_append]
    rfl
  rw [quoted, quoted] at rest
  rw [eq_nil_of_quoted plain rest, List.append_nil] at further
  exact String.ext further

/-- The text tells two URLs apart if a URL with more line ends has no fewer of them in its
reason. -/
theorem text_ofStore_inj
    (grows : lineEnds u.toList ≤ lineEnds u'.toList →
      lineEnds e.message.toList ≤ lineEnds e'.message.toList)
    (grows' : lineEnds u'.toList ≤ lineEnds u.toList →
      lineEnds e'.message.toList ≤ lineEnds e.message.toList)
    (same : (ofStore u' e').text = (ofStore u e).text) : u' = u := by
  rw [text_ofStore, text_ofStore, String.append_right_inj, String.append_right_inj] at same
  have texts := congrArg String.toList same
  rw [String.toList_append, String.toList_append (s := u)] at texts
  rcases List.append_eq_append_iff.mp texts with ⟨z, further, rest⟩ | ⟨z, further, rest⟩
  · exact (eq_of_further grows' further rest).symm
  · exact eq_of_further grows further rest

/-- A store that cannot be used is not taken for a server that does not start. -/
theorem text_ofStore_ne (url : String) (e : StoreError) (f : ServerError) :
    (ofStore url e).text ≠ (ofServer f).text := by
  intro same
  have server : ∃ rest, (ofServer f).text = "Error: " ++ ("failed to start server" ++ rest) := by
    unfold text
    dsimp only
    rw [String.append_assoc, String.append_assoc, String.append_assoc]
    exact ⟨_, rfl⟩
  obtain ⟨rest, server⟩ := server
  rw [text_ofStore, server, String.append_right_inj] at same
  have texts := congrArg (·.toList.head?) same
  simp at texts

end Program.Failure

end CacheAside
