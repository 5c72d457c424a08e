import TraceWatch.Proofs.Store.Frame
import TraceWatch.Proofs.System.Commons

/-!
# Conditional changes of a schedule

Three calls change when a monitor is due, and each looks at what is stored before it writes: a
schedule is moved on only while the monitor is on it, and only a future monitor is taken off it or
put back. `Call.Reschedules` says what such a call finds, what it answers and what it leaves;
`Commons.Answers.reschedules` says that nothing else changes when a stored monitor is due.
-/

namespace TraceWatch

/-- The call finds the monitor as it has to be, changes when it is due, and tells that it has. -/
inductive Call.Reschedules (m : Monitor) : (c : Call) → c.Answer → Option Timestamp → Prop
  | advance (next : Timestamp) : m.nextRun.isSome = true →
    Reschedules m (.store (.advance m.id next)) (.ok true) (some next)
  | suspend : m.isFuture = true → m.nextRun.isSome = true →
    Reschedules m (.store (.suspend m.id)) (.ok true) none
  | resume (next : Timestamp) : m.isFuture = true → m.nextRun = none →
    Reschedules m (.store (.resume m.id next)) (.ok true) (some next)

namespace StoreCall

variable {now : Timestamp} {s : Store} {m m' : Monitor}

/-- Whether a schedule is changed depends on the monitor that has it. -/
theorem reschedule_answer (hids : (s.monitors.map Monitor.id).Nodup) (hm : m ∈ s.monitors)
    (may : Monitor → Bool) (next : Option Timestamp) :
    (s.reschedule m.id may next now).2 = may m := by
  rw [Store.reschedule, Store.findMonitor_of_mem hids hm, Option.any_some]
  cases may m <;> rfl

theorem suspend_answer (hids : (s.monitors.map Monitor.id).Nodup) (hm : m ∈ s.monitors) :
    (perform now s (.suspend m.id)).1 = .ok (m.isFuture && m.nextRun.isSome) :=
  congrArg Except.ok (reschedule_answer hids hm _ _)

theorem resume_answer (hids : (s.monitors.map Monitor.id).Nodup) (hm : m ∈ s.monitors)
    (next : Timestamp) :
    (perform now s (.resume m.id next)).1 = .ok (m.isFuture && m.nextRun.isNone) :=
  congrArg Except.ok (reschedule_answer hids hm _ _)

/-- A conditional change that is not made leaves the store as it was. -/
theorem eq_of_vain {id : Uuid} {may : Monitor → Bool} {next : Option Timestamp} {after : Store}
    (h : (.ok false, after) = conditional (s.reschedule id may next now)) : after = s := by
  have hnot : (s.reschedule id may next now).2 = false :=
    (Except.ok.inj (congrArg Prod.fst h)).symm
  have hsame : (s.reschedule id may next now).1 = s :=
    reschedule_eq_self (by rw [hnot]; exact Bool.false_ne_true)
  exact (congrArg Prod.snd h).trans hsame

/-- A schedule that has been changed is that of a stored monitor, for which it was allowed. -/
theorem exists_of_reschedule {id : Uuid} {may : Monitor → Bool} {next : Option Timestamp}
    (hdone : (s.reschedule id may next now).2 = true) :
    ∃ m ∈ s.monitors, m.id = id ∧ may m = true := by
  unfold Store.reschedule at hdone
  split at hdone
  · next hmay =>
    obtain ⟨m, hfound, hm⟩ := (Option.any_eq_true _ _).1 hmay
    exact ⟨m, List.mem_of_find?_eq_some hfound, by simpa using List.find?_some hfound, hm⟩
  · cases hdone

/-- A conditional change of a schedule leaves a stored monitor as it is, or it was allowed for that
monitor. -/
theorem eq_of_mem_reschedule (hids : (s.monitors.map Monitor.id).Nodup) (hm : m ∈ s.monitors)
    {id : Uuid} {may : Monitor → Bool} {next : Option Timestamp}
    (hm' : m' ∈ (s.reschedule id may next now).1.monitors) (heq : m'.id = m.id) :
    m' = m ∨ (id = m.id ∧ may m = true ∧ m'.nextRun = next) := by
  obtain ⟨m₁, hm₁, rfl | ⟨rfl, rfl⟩⟩ := mem_reschedule hm'
  · exact .inl (List.inj_on_of_nodup_map hids hm₁ hm heq)
  · obtain rfl : m₁ = m := List.inj_on_of_nodup_map hids hm₁ hm heq
    cases hmay : may m₁ with
    | true => exact .inr ⟨rfl, rfl, rfl⟩
    | false =>
      -- nothing is changed, so what is there now was there before
      rw [Store.reschedule, Store.findMonitor_of_mem hids hm, Option.any_some, hmay] at hm'
      exact .inl (List.inj_on_of_nodup_map hids hm' hm rfl)

/-- A call other than its creation leaves a stored monitor due when it was due before, or it was
allowed to reschedule it. -/
theorem reschedules_perform {c : StoreCall} (hids : (s.monitors.map Monitor.id).Nodup)
    (hm : m ∈ s.monitors) (hm' : m' ∈ (c.perform now s).2.monitors) (heq : m'.id = m.id)
    (hc : c ≠ .createMonitor m') :
    m'.nextRun = m.nextRun ∨ Call.Reschedules m (.store c) (c.perform now s).1 m'.nextRun := by
  cases c with
  | advance id next =>
    rcases eq_of_mem_reschedule hids hm hm' heq with rfl | ⟨rfl, hmay, hnext⟩
    · exact .inl rfl
    · have hanswer : (perform now s (.advance m.id next)).1 = .ok true :=
        congrArg Except.ok ((reschedule_answer hids hm _ _).trans hmay)
      rw [hanswer, hnext]
      exact .inr (.advance next hmay)
  | suspend id =>
    rcases eq_of_mem_reschedule hids hm hm' heq with rfl | ⟨rfl, hmay, hnext⟩
    · exact .inl rfl
    · rw [suspend_answer hids hm, hmay, hnext]
      rw [Bool.and_eq_true] at hmay
      exact .inr (.suspend hmay.1 hmay.2)
  | resume id next =>
    rcases eq_of_mem_reschedule hids hm hm' heq with rfl | ⟨rfl, hmay, hnext⟩
    · exact .inl rfl
    · rw [resume_answer hids hm, hmay, hnext]
      rw [Bool.and_eq_true, Option.isNone_iff_eq_none] at hmay
      exact .inr (.resume next hmay.1 hmay.2)
  | _ =>
    left
    rcases mem_monitors_perform hm' with hcreate | ⟨m₁, hm₁, hrewrites⟩
    · exact absurd hcreate hc
    · have hid : m₁.id = m.id := hrewrites.id_eq.symm.trans heq
      obtain rfl : m₁ = m := List.inj_on_of_nodup_map hids hm₁ hm hid
      cases hrewrites <;> rfl

end StoreCall

/-- A call other than its creation leaves a stored monitor due when it was due before, or it was
allowed to reschedule it. -/
theorem Commons.Answers.reschedules {w w' : Commons} {i : Nat} {c : Call} {answer : c.Answer}
    (h : w.Answers i c answer w') (hids : (w.store.monitors.map Monitor.id).Nodup) {m m' : Monitor}
    (hm : m ∈ w.store.monitors) (hm' : m' ∈ w'.store.monitors) (heq : m'.id = m.id)
    (hc : c ≠ .store (.createMonitor m')) :
    m'.nextRun = m.nextRun ∨ c.Reschedules m answer m'.nextRun := by
  rcases h.store_cases with ⟨d, rfl, -⟩ | hsame
  · obtain ⟨rfl, rfl⟩ := h
    exact StoreCall.reschedules_perform hids hm hm' heq fun hd => hc (congrArg _ hd)
  · rw [hsame] at hm'
    rw [List.inj_on_of_nodup_map hids hm' hm heq]
    exact .inl rfl

end TraceWatch
