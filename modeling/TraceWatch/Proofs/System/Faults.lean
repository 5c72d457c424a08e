import TraceWatch.Proofs.System.Replay

/-!
# Sites whose store may fail

The store of a site answers as it is bound to. Here it may fail as well: a call of the store may be
answered with any error, and then changes nothing. Whatever happens at a site may happen here, and a
statement about these sites holds however and whenever the store fails.
-/

namespace TraceWatch

/-- What a call of a task may be answered if the store may fail. A call of the store that fails
changes nothing. -/
inductive Commons.RoughAnswers (w : Commons) (task : Nat) : (c : Call) → c.Answer → Commons → Prop
  | sound {c : Call} {answer : c.Answer} {w' : Commons} : w.Answers task c answer w' →
    RoughAnswers w task c answer w'
  | fails (c : StoreCall) (e : StoreError) : RoughAnswers w task (.store c) (.error e) w

namespace Site

/-- One thing happens at a site whose store may fail. -/
inductive RoughStep : Site → Event → Site → Prop
  | tick (w : Commons) (tasks : List Task) (t : Timestamp) :
    RoughStep ⟨w, tasks⟩ (.tick t) ⟨{ w with clock := t }, tasks⟩
  | begins (w : Commons) (tasks : List Task) (a : Activity) :
    RoughStep ⟨w, tasks⟩ (.begins a) ⟨w, tasks ++ [.new a]⟩
  | call {w w' : Commons} {tasks : List Task} {i : Nat} {a : Activity} {c : Call}
    {next : c.Answer → Program (Except MonitorError a.Result)} {answer : c.Answer} :
    tasks[i]? = some ⟨a, .call c next⟩ → w.RoughAnswers i c answer w' →
      RoughStep ⟨w, tasks⟩ (.call i a c answer) ⟨w', tasks.set i ⟨a, next answer⟩⟩
  | drops {w : Commons} {tasks : List Task} {i : Nat} {a : Activity} :
    tasks[i]? = some ⟨a, .halt⟩ → RoughStep ⟨w, tasks⟩ (.drops i) ⟨w.freeLock i, tasks⟩

namespace RoughStep

variable {s s' : Site} {a : Activity} {k : Nat}

theorem of_begins (h : s.RoughStep (.begins a) s') : s' = ⟨s.commons, s.tasks ++ [.new a]⟩ := by
  cases h with
  | begins => rfl

theorem of_call {c : Call} {answer : c.Answer} (h : s.RoughStep (.call k a c answer) s') :
    ∃ next, s.tasks[k]? = some ⟨a, .call c next⟩ ∧ s'.tasks[k]? = some ⟨a, next answer⟩ := by
  cases h with
  | call hold => exact ⟨_, hold, List.getElem?_set_self (List.getElem?_eq_some_iff.1 hold).1⟩

theorem of_drops (h : s.RoughStep (.drops k) s') :
    (∃ a, s.tasks[k]? = some ⟨a, .halt⟩) ∧ s' = ⟨s.commons.freeLock k, s.tasks⟩ := by
  cases h with
  | drops hold => exact ⟨⟨_, hold⟩, rfl⟩

end RoughStep

/-- One thing after the other happens at such a site, the latest last. -/
inductive RoughHistory (s : Site) : List Event → Site → Prop
  | nil : RoughHistory s [] s
  | snoc {es : List Event} {e : Event} {s' s'' : Site} :
    RoughHistory s es s' → RoughStep s' e s'' → RoughHistory s (es ++ [e]) s''

/-- What happens if the store does not fail is among what may happen. -/
theorem Step.rough {s s' : Site} {e : Event} (h : Step s e s') : RoughStep s e s' := by
  cases h with
  | tick w tasks t => exact .tick w tasks t
  | begins w tasks a => exact .begins w tasks a
  | call htask hanswer => exact .call htask (.sound hanswer)
  | drops htask => exact .drops htask

theorem RoughHistory.append {s s' : Site} {es : List Event} (h : RoughHistory s es s') :
    ∀ {es' : List Event} {s'' : Site}, History s' es' s'' → RoughHistory s (es ++ es') s''
  | _, _, .nil => by rw [List.append_nil]; exact h
  | _, _, .snoc h' hstep => by rw [← List.append_assoc]; exact .snoc (h.append h') hstep.rough

/-! ## Failing on purpose -/

/-- What happens if the call of the store that a task is about to make fails. -/
def failing? (s : Site) (i : Nat) (e : StoreError) : Option (Event × Site) :=
  match s.tasks[i]? with
  | some ⟨a, .call (.store c) next⟩ =>
    some (.call i a (.store c) (.error e), ⟨s.commons, s.tasks.set i ⟨a, next (.error e)⟩⟩)
  | _ => none

theorem roughStep_of_failing? {s s' : Site} {i : Nat} {e : StoreError} {event : Event}
    (h : s.failing? i e = some (event, s')) : s.RoughStep event s' := by
  unfold failing? at h
  split at h
  · next htask =>
    cases h
    exact .call htask (.fails _ e)
  · cases h

/-- A schedule, a call of the store by a task that fails, and a schedule again. -/
def afterFailure (env : Surroundings) (first : List Turn) (i : Nat) (e : StoreError)
    (second : List Turn) (s : Site) : Option (List Event × Site) := do
  let (es₁, s₁) ← replay env first s
  let (event, s₂) ← s₁.failing? i e
  let (es₂, s₃) ← replay env second s₂
  some (es₁ ++ [event] ++ es₂, s₃)

/-- What happens under such a schedule is a history of a site whose store may fail. -/
theorem roughHistory_of_afterFailure {env : Surroundings} {first second : List Turn} {i : Nat}
    {e : StoreError} {s s' : Site} {es : List Event}
    (h : s.afterFailure env first i e second = some (es, s')) : s.RoughHistory es s' := by
  simp only [afterFailure, Option.bind_eq_bind, Option.bind_eq_some_iff] at h
  obtain ⟨⟨es₁, s₁⟩, hfirst, ⟨event, s₂⟩, hfails, ⟨es₂, s₃⟩, hsecond, heq⟩ := h
  cases heq
  have hbefore : s.RoughHistory ([] ++ es₁) s₁ := RoughHistory.nil.append (replay_history hfirst)
  exact (hbefore.snoc (roughStep_of_failing? hfails)).append (replay_history hsecond)

end Site

end TraceWatch
