import TraceWatch.Run.Report

/-!
# The condition that counts

A report is read by the first of its conditions that is about completion, and of that condition by
three words: its status, its reason and its message. What stands before that condition, after it
or beside it does not matter, and neither does the shape of the rest of the document
(`read_by_first_completion`). The words are read by a table (`Verdict`), which has one row for
every combination of them.
-/

namespace TraceWatch.Report

/-! ## The conditions of a report -/

/-- The report has a list of conditions, and these are its entries. -/
def Lists (report : Json) (items : List Json) : Prop :=
  ∃ status, report.get? "status" = some status ∧ status.get? "conditions" = some (.array items)

/-- An entry is about completion if it is an object whose type is the one text. -/
def IsAboutCompletion (entry : Json) : Prop :=
  ∃ fields, entry = .object fields ∧
    JsonFields.get? fields "type" = some (.string "WorkflowCompleted")

/-- The fields are those of the first entry of the report that is about completion. -/
def IsFirst (report : Json) (fields : JsonFields) : Prop :=
  ∃ before after, Lists report (before ++ .object fields :: after) ∧
    (∀ entry ∈ before, ¬ IsAboutCompletion entry) ∧ IsAboutCompletion (.object fields)

/-- No entry of the report is about completion, if it has entries at all. -/
def IsSilent (report : Json) : Prop :=
  ∀ items, Lists report items → ∀ entry ∈ items, ¬ IsAboutCompletion entry

/-- What a condition says under a key: a text that is not empty, and otherwise nothing. -/
inductive Says (fields : JsonFields) (key : String) : Option String → Prop
  | word {word : String} (found : JsonFields.get? fields key = some (.string word))
      (filled : word ≠ "") : Says fields key (some word)
  | nothing (empty : ∀ word, JsonFields.get? fields key = some (.string word) → word = "") :
      Says fields key none

/-! ## The table -/

/-- The status that the words of the condition stand for: its status, its reason and its
message. -/
inductive Verdict : Option String → Option String → Option String → RunStatus → Prop
  | succeeded {message} : Verdict (some "True") (some "WorkflowSucceeded") message .succeeded
  | unsuccessful {reason message} (other : reason ≠ some "WorkflowSucceeded") :
      Verdict (some "True") reason message .failed
  | running {message} : Verdict (some "False") (some "WorkflowRunning") message .running
  | waiting {message} : Verdict (some "False") (some "WorkflowPending") message .pending
  | unexplained {message} : Verdict (some "False") none message .pending
  | broken {reason message} (other : reason ≠ "WorkflowRunning" ∧ reason ≠ "WorkflowPending") :
      Verdict (some "False") (some reason) (some message) .failed
  | unknown {reason} (other : reason ≠ "WorkflowRunning" ∧ reason ≠ "WorkflowPending") :
      Verdict (some "False") (some reason) none .pending
  | undecided {status reason message} (other : status ≠ some "True" ∧ status ≠ some "False") :
      Verdict status reason message .pending

/-- The text that a reason and a message make together. -/
inductive Wording : Option String → Option String → String → Prop
  | both {reason message : String} :
      Wording (some reason) (some message) (reason ++ ": " ++ message)
  | reason {reason : String} : Wording (some reason) none reason
  | message {message : String} : Wording none (some message) message
  | none : Wording none none ""

/-- Every combination of words has a row of the table. -/
theorem Verdict.runStatus (status reason message : Option String) :
    Verdict status reason message (Condition.runStatus ⟨status.getD "", reason, message⟩) := by
  by_cases htrue : status = some "True"
  · subst htrue
    by_cases hreason : reason = some "WorkflowSucceeded"
    · subst hreason
      exact .succeeded
    · simpa [Condition.runStatus, hreason] using Verdict.unsuccessful hreason
  by_cases hfalse : status = some "False"
  · subst hfalse
    cases reason with
    | none => exact .unexplained
    | some reason =>
      by_cases hrunning : reason = "WorkflowRunning"
      · subst hrunning
        exact .running
      by_cases hpending : reason = "WorkflowPending"
      · subst hpending
        exact .waiting
      have hother : reason ≠ "WorkflowRunning" ∧ reason ≠ "WorkflowPending" :=
        ⟨hrunning, hpending⟩
      cases message with
      | none => simpa [Condition.runStatus, hother] using Verdict.unknown hother
      | some message => simpa [Condition.runStatus, hother] using Verdict.broken hother
  · have hopen : Condition.runStatus ⟨status.getD "", reason, message⟩ = .pending := by
      cases status with
      | none => rfl
      | some status =>
        simp only [Option.some.injEq] at htrue hfalse
        simp [Condition.runStatus, htrue, hfalse]
    rw [hopen]
    exact .undecided ⟨htrue, hfalse⟩

/-- No combination of words has two rows that differ. -/
theorem Verdict.eq_runStatus {status reason message : Option String} {verdict : RunStatus}
    (h : Verdict status reason message verdict) :
    verdict = Condition.runStatus ⟨status.getD "", reason, message⟩ := by
  cases h with
  | succeeded | running | waiting | unexplained => rfl
  | unsuccessful hother => simp [Condition.runStatus, hother]
  | broken hother | unknown hother => simp [Condition.runStatus, hother.1, hother.2]
  | undecided hother =>
    cases status with
    | none => rfl
    | some status =>
      simp only [ne_eq, Option.some.injEq] at hother
      simp [Condition.runStatus, hother.1, hother.2]

/-- The table is what a condition is read by. -/
theorem verdict_iff {status reason message : Option String} {verdict : RunStatus} :
    Verdict status reason message verdict ↔
      Condition.runStatus ⟨status.getD "", reason, message⟩ = verdict := by
  constructor
  · exact fun h => h.eq_runStatus.symm
  · rintro rfl
    exact Verdict.runStatus status reason message

/-- A job whose condition is not met has failed only with a reason and a message. -/
theorem Condition.exists_of_failed {reason message : Option String}
    (h : Condition.runStatus ⟨"False", reason, message⟩ = .failed) :
    ∃ why what, reason = some why ∧ message = some what := by
  cases reason with
  | none => simp [Condition.runStatus] at h
  | some why =>
    cases message with
    | none => grind [Condition.runStatus]
    | some what => exact ⟨why, what, rfl, rfl⟩

/-- The reason and the message of a condition make its text, whatever its status is. -/
theorem wording_iff {status : String} {reason message : Option String} {words : String} :
    Wording reason message words ↔ Condition.text ⟨status, reason, message⟩ = words := by
  constructor
  · intro h
    cases h <;> rfl
  · rintro rfl
    cases reason <;> cases message <;> constructor

/-! ## Reading the list -/

theorem Says.textOf?_eq {fields : JsonFields} {key : String} {word : Option String}
    (h : Says fields key word) : textOf? fields key = word := by
  unfold textOf?
  cases h with
  | word hfound hfilled => simp [hfound, Json.string?, hfilled]
  | nothing hempty =>
    rw [Option.filter_eq_none_iff]
    intro word hword
    obtain ⟨value, hvalue, hstring⟩ := Option.bind_eq_some_iff.1 hword
    cases value <;> cases hstring
    simpa using hempty word hvalue

/-- Under every key a condition says something or nothing. -/
theorem says_textOf? (fields : JsonFields) (key : String) :
    Says fields key (textOf? fields key) := by
  cases h : textOf? fields key with
  | none =>
    refine .nothing fun word hword => ?_
    simpa [textOf?, hword, Json.string?] using h
  | some word =>
    obtain ⟨hbind, hfilled⟩ := Option.filter_eq_some_iff.1 h
    obtain ⟨value, hvalue, hstring⟩ := Option.bind_eq_some_iff.1 hbind
    cases value <;> cases hstring
    exact .word hvalue (by simpa using hfilled)

/-- An empty text for the status is as good as none. -/
theorem getD_textOf? (fields : JsonFields) (key : String) :
    (textOf? fields key).getD "" = ((JsonFields.get? fields key).bind Json.string?).getD "" := by
  unfold textOf?
  cases (JsonFields.get? fields key).bind Json.string? with
  | none => rfl
  | some word =>
    by_cases h : word = "" <;> simp [Option.filter, h]

/-- An entry that is about completion is a condition with the words that it says. -/
theorem IsAboutCompletion.conditionOf?_eq {fields : JsonFields}
    (h : IsAboutCompletion (.object fields)) :
    conditionOf? (.object fields) = some ⟨(textOf? fields "status").getD "",
      textOf? fields "reason", textOf? fields "message"⟩ := by
  obtain ⟨_, hentry, htype⟩ := h
  cases hentry
  rw [conditionOf?, if_pos (by simp [isCompletion, htype, Json.string?]), getD_textOf?]

/-- Any other entry is no condition at all. -/
theorem conditionOf?_eq_none {entry : Json} (h : ¬ IsAboutCompletion entry) :
    conditionOf? entry = none := by
  cases entry with
  | object fields =>
    refine if_neg fun hcompletion => h ⟨fields, rfl, ?_⟩
    obtain ⟨value, hvalue, hstring⟩ := Option.bind_eq_some_iff.1 (of_decide_eq_true hcompletion)
    cases value <;> cases hstring
    exact hvalue
  | _ => rfl

theorem Lists.entries_eq {report : Json} {items : List Json} (h : Lists report items) :
    entries report = items := by
  obtain ⟨status, hstatus, hconditions⟩ := h
  simp [entries, hstatus, hconditions, Json.array?]

/-- A report whose list cannot be found has no entries. -/
theorem lists_entries {report : Json} {entry : Json} (h : entry ∈ entries report) :
    Lists report (entries report) := by
  unfold entries at h ⊢
  cases hitems : ((report.get? "status").bind (·.get? "conditions")).bind Json.array? with
  | none => simp [hitems] at h
  | some items =>
    obtain ⟨conditions, hbind, harray⟩ := Option.bind_eq_some_iff.1 hitems
    obtain ⟨status, hstatus, hconditions⟩ := Option.bind_eq_some_iff.1 hbind
    cases conditions <;> cases harray
    exact ⟨status, hstatus, hconditions⟩

/-- Entries that are not about completion are passed over. -/
theorem findSome?_passes (before after : List Json)
    (h : ∀ entry ∈ before, ¬ IsAboutCompletion entry) :
    (before ++ after).findSome? conditionOf? = after.findSome? conditionOf? := by
  induction before with
  | nil => rfl
  | cons entry rest ih =>
    rw [List.cons_append, List.findSome?_cons, conditionOf?_eq_none (h entry List.mem_cons_self)]
    exact ih fun e he => h e (List.mem_cons_of_mem entry he)

/-- The condition that counts is the first that is about completion. -/
theorem IsFirst.completion?_eq {report : Json} {fields : JsonFields} (h : IsFirst report fields) :
    completion? report = some ⟨(textOf? fields "status").getD "",
      textOf? fields "reason", textOf? fields "message"⟩ := by
  obtain ⟨before, after, hlists, hbefore, hcounts⟩ := h
  rw [completion?, hlists.entries_eq, findSome?_passes before _ hbefore, List.findSome?_cons,
    hcounts.conditionOf?_eq]

/-- Without an entry that is about completion no condition counts. -/
theorem IsSilent.completion?_eq_none {report : Json} (h : IsSilent report) :
    completion? report = none := by
  rw [completion?, List.findSome?_eq_none_iff]
  intro entry hentry
  exact conditionOf?_eq_none (h _ (lists_entries hentry) entry hentry)

/-- One of the entries is the first that is about completion, unless none of them is. -/
theorem exists_first (items : List Json) :
    (∃ before fields after, items = before ++ .object fields :: after ∧
      (∀ entry ∈ before, ¬ IsAboutCompletion entry) ∧ IsAboutCompletion (.object fields)) ∨
    ∀ entry ∈ items, ¬ IsAboutCompletion entry := by
  induction items with
  | nil => exact .inr (by simp)
  | cons entry rest ih =>
    by_cases hentry : IsAboutCompletion entry
    · obtain ⟨fields, rfl, -⟩ := id hentry
      exact .inl ⟨[], fields, rest, rfl, by simp, hentry⟩
    · obtain ⟨before, fields, after, rfl, hbefore, hcounts⟩ | hnone := ih
      · exact .inl ⟨entry :: before, fields, after, rfl,
          List.forall_mem_cons.2 ⟨hentry, hbefore⟩, hcounts⟩
      · exact .inr (List.forall_mem_cons.2 ⟨hentry, hnone⟩)

/-- A report has a condition that counts, or else it is silent. -/
theorem exists_isFirst_or_isSilent (report : Json) :
    (∃ fields, IsFirst report fields) ∨ IsSilent report := by
  by_cases hlists : Lists report (entries report)
  · obtain ⟨before, fields, after, hitems, hbefore, hcounts⟩ | hnone :=
      exists_first (entries report)
    · exact .inl ⟨fields, before, after, hitems ▸ hlists, hbefore, hcounts⟩
    · refine .inr fun items hitems => ?_
      rwa [← hitems.entries_eq]
  · exact .inr fun items hitems entry hentry =>
      absurd (lists_entries (hitems.entries_eq.symm ▸ hentry)) hlists

/-! ## What a report says -/

section

variable {report : Json} {fields : JsonFields} {status reason message : Option String}

/-- A report has the status that the words of its first condition about completion stand for. -/
theorem IsFirst.runStatus_eq (h : IsFirst report fields) (hstatus : Says fields "status" status)
    (hreason : Says fields "reason" reason) (hmessage : Says fields "message" message) :
    runStatus report = Condition.runStatus ⟨status.getD "", reason, message⟩ := by
  rw [runStatus, h.completion?_eq, hstatus.textOf?_eq, hreason.textOf?_eq, hmessage.textOf?_eq]
  rfl

/-- A report has the text that the reason and the message of that condition make. -/
theorem IsFirst.text_eq (h : IsFirst report fields) (hreason : Says fields "reason" reason)
    (hmessage : Says fields "message" message) :
    Report.text report = Condition.text ⟨"", reason, message⟩ := by
  rw [Report.text, h.completion?_eq, hreason.textOf?_eq, hmessage.textOf?_eq]
  rfl

end

/-- A report is read by the words of its first condition about completion and by nothing else of
it: its status is the one that the table has for them, its text is made of the reason and the
message, and a report with the same words in that condition reads the same, whatever else is in
the two. A report without such a condition is one on a pending run and has no text. A job whose
condition is not met has failed only with a text that gives a reason and a message. -/
theorem read_by_first_completion (report : Json) :
    ((∃ fields, IsFirst report fields) ∨ IsSilent report) ∧
    (IsSilent report → runStatus report = .pending ∧ Report.text report = "") ∧
    ∀ fields, IsFirst report fields →
      (∃ status reason message, Says fields "status" status ∧ Says fields "reason" reason ∧
        Says fields "message" message) ∧
      (∀ status reason message, Says fields "status" status → Says fields "reason" reason →
        Says fields "message" message →
          (∀ verdict, runStatus report = verdict ↔ Verdict status reason message verdict) ∧
          ∀ words, Report.text report = words ↔ Wording reason message words) ∧
      (∀ report' fields', IsFirst report' fields' →
        (∀ key ∈ ["status", "reason", "message"], ∀ word,
          Says fields key word ↔ Says fields' key word) →
        runStatus report' = runStatus report ∧ Report.text report' = Report.text report) ∧
      (Says fields "status" (some "False") → runStatus report = .failed →
        ∃ reason message, Says fields "reason" (some reason) ∧
          Says fields "message" (some message) ∧
          Report.text report = reason ++ ": " ++ message) := by
  refine ⟨exists_isFirst_or_isSilent report, fun hsilent => ?_, fun fields hfirst => ?_⟩
  · rw [runStatus, Report.text, hsilent.completion?_eq_none]
    exact ⟨rfl, rfl⟩
  have hstatus := says_textOf? fields "status"
  have hreason := says_textOf? fields "reason"
  have hmessage := says_textOf? fields "message"
  refine ⟨⟨_, _, _, hstatus, hreason, hmessage⟩, ?_, ?_, ?_⟩
  · intro status reason message hstatus hreason hmessage
    rw [hfirst.runStatus_eq hstatus hreason hmessage, hfirst.text_eq hreason hmessage]
    exact ⟨fun _ => verdict_iff.symm, fun _ => wording_iff.symm⟩
  · intro report' fields' hfirst' hsame
    have hreason' := (hsame "reason" (by simp) _).1 hreason
    have hmessage' := (hsame "message" (by simp) _).1 hmessage
    rw [hfirst.runStatus_eq hstatus hreason hmessage, hfirst.text_eq hreason hmessage,
      hfirst'.runStatus_eq ((hsame "status" (by simp) _).1 hstatus) hreason' hmessage',
      hfirst'.text_eq hreason' hmessage']
    exact ⟨rfl, rfl⟩
  · intro hfalse hfailed
    rw [hfirst.runStatus_eq hfalse hreason hmessage] at hfailed
    obtain ⟨why, what, hwhy, hwhat⟩ := Condition.exists_of_failed hfailed
    rw [hwhy] at hreason
    rw [hwhat] at hmessage
    exact ⟨why, what, hreason, hmessage, hfirst.text_eq hreason hmessage⟩

/-- A condition for a job that was evicted. -/
def evicted : JsonFields :=
  [("type", .string "WorkflowCompleted"), ("status", .string "False"),
    ("reason", .string "Evicted"), ("message", .string "node lost")]

/-- A document with the entries for its conditions. -/
def listing (items : List Json) : Json :=
  .object [("status", .object [("conditions", .array items)])]

/-- An eviction reads the same alone as between a text, an entry without a proper type and a later
condition that tells of success. -/
theorem evicted_reads_in_crowd :
    runStatus (listing [.string "WorkflowCompleted", .object [("type", .whole 1)],
      .object evicted, .object [("type", .string "WorkflowCompleted"),
        ("status", .string "True"), ("reason", .string "WorkflowSucceeded")]]) =
      runStatus (listing [.object evicted]) ∧
    runStatus (listing [.object evicted]) = .failed ∧
    ∃ reason message, Says evicted "reason" (some reason) ∧ Says evicted "message" (some message) ∧
      Report.text (listing [.object evicted]) = reason ++ ": " ++ message := by
  have hevicted : IsAboutCompletion (.object evicted) := ⟨evicted, rfl, rfl⟩
  have halone : IsFirst (listing [.object evicted]) evicted :=
    ⟨[], [], ⟨_, rfl, rfl⟩, by simp, hevicted⟩
  obtain ⟨-, -, hreads⟩ := read_by_first_completion (listing [.object evicted])
  obtain ⟨-, -, hsame, hexplained⟩ := hreads evicted halone
  refine ⟨(hsame _ evicted ⟨[_, _], [_], ⟨_, rfl, rfl⟩, ?_, hevicted⟩ fun _ _ _ => .rfl).1,
    by decide, hexplained (.word rfl (by simp)) (by decide)⟩
  rintro entry hentry ⟨fields, rfl, htype⟩
  simp only [List.mem_cons, List.not_mem_nil, or_false, reduceCtorEq, Json.object.injEq,
    false_or] at hentry
  subst hentry
  simp [JsonFields.get?, Json.whole] at htype

end TraceWatch.Report
