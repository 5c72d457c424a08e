import TraceWatch.Proofs.Protocol.Phase
import TraceWatch.Proofs.Store.Frame

/-!
# Following the protocol

A program follows the protocol from a phase on if each of its calls, however it is answered, is a
passage to a phase from which the rest follows, and if it ends in a phase that its postcondition
admits. `Program.Follows.bind` takes a sequence of steps apart; `Assignment.follows` is the rule for
an execution, whatever it is for.
-/

namespace TraceWatch

/-! ## What can be answered -/

/-- The answer is one that a call can get. -/
def Call.Possible (c : Call) (answer : c.Answer) : Prop :=
  ∃ (w : Commons) (task : Nat) (w' : Commons), w.Answers task c answer w'

namespace Call.Possible

theorem store {c : StoreCall} {answer : Except StoreError c.Answer}
    (h : Possible (.store c) answer) : ∃ now s, answer = (c.perform now s).1 :=
  have ⟨w, _, _, hanswer, _⟩ := h
  ⟨w.clock, w.store, hanswer⟩

/-- What is found by a name bears that name. -/
theorem findByName {org name : String} {answer : Except StoreError (Option Monitor)}
    (h : Possible (.store (.findByName org name)) answer) :
    answer = .ok none ∨ ∃ m, answer = .ok (some m) ∧ m.org = org ∧ m.name = name := by
  obtain ⟨now, s, rfl⟩ := h.store
  cases hfind : s.findByName org name with
  | none => exact .inl (congrArg Except.ok hfind)
  | some m => exact .inr ⟨m, congrArg Except.ok hfind, Store.named_of_findByName hfind⟩

/-- What is found by an identifier bears that identifier. -/
theorem findRun {id : Uuid} {answer : Except StoreError (Option Run)}
    (h : Possible (.store (.findRun id)) answer) :
    answer = .ok none ∨ ∃ r, answer = .ok (some r) ∧ r.id = id := by
  obtain ⟨now, s, rfl⟩ := h.store
  cases hfind : s.findRun id with
  | none => exact .inl (congrArg Except.ok hfind)
  | some r => exact .inr ⟨r, congrArg Except.ok hfind, by simpa using List.find?_some hfind⟩

/-- The lock is taken or it is not. -/
theorem acquireLock {answer : Except StoreError Bool} (h : Possible .acquireLock answer) :
    ∃ taken, answer = .ok taken := by
  obtain ⟨_, _, _, ⟨_, h, _⟩ | ⟨_, h, _⟩⟩ := h
  · exact ⟨true, h⟩
  · exact ⟨false, h⟩

end Call.Possible

/-- Every call can be answered. -/
theorem Call.exists_possible (c : Call) : ∃ answer, c.Possible answer := by
  let w : Commons := ⟨.empty, none, ⟨0, 0⟩, []⟩
  cases c with
  | now => exact ⟨_, w, 0, w, rfl, rfl⟩
  | freshId => exact ⟨⟨0⟩, w, 0, _, List.not_mem_nil, rfl⟩
  | cancelled => exact ⟨false, w, 0, w, rfl⟩
  | count event => exact ⟨(), w, 0, w, rfl⟩
  | acquireLock => exact ⟨_, w, 0, _, .inl ⟨rfl, rfl, rfl⟩⟩
  | releaseLock => exact ⟨_, w, 0, _, rfl, rfl⟩
  | store c => exact ⟨_, w, 0, _, rfl, rfl⟩
  | plane c => exact ⟨.error (.notFound ""), w, 0, w, rfl⟩

/-! ## The rules -/

namespace Program

variable {α β : Type} {a : Activity} {φ : Phase}

/-- From a phase on, a program of an activity keeps to the protocol and ends as it should. -/
def Follows (a : Activity) (post : α → Phase → Prop) : Program α → Phase → Prop
  | done v, φ => post v φ
  | halt, φ => φ.MayHalt
  | call c next, φ => ∀ answer, c.Possible answer →
    ∃ φ', Passage a φ c answer φ' ∧ Follows a post (next answer) φ'

variable {post : α → Phase → Prop}

theorem Follows.mono {post' : α → Phase → Prop} (hpost : ∀ v φ, post v φ → post' v φ) :
    ∀ {p : Program α} {φ : Phase}, p.Follows a post φ → p.Follows a post' φ
  | done _, _, h => hpost _ _ h
  | halt, _, h => h
  | call _ _, _, h => fun answer hanswer =>
    have ⟨φ', hpassage, hnext⟩ := h answer hanswer
    ⟨φ', hpassage, hnext.mono hpost⟩

/-- A sequence follows the protocol if its first part ends where its second part can go on. -/
theorem Follows.bind {f : α → Program β} {post : β → Phase → Prop} :
    ∀ {p : Program α} {φ : Phase}, p.Follows a (fun v φ => (f v).Follows a post φ) φ →
      (p.bind f).Follows a post φ
  | done _, _, h => h
  | halt, _, h => h
  | call _ _, _, h => fun answer hanswer =>
    have ⟨φ', hpassage, hnext⟩ := h answer hanswer
    ⟨φ', hpassage, hnext.bind⟩

/-- Where reading is allowed, a program that only reads stays. -/
theorem ReadsOnly.follows (hφ : φ.MayRead) (ha : a.isDelete = false) (hpost : ∀ v, post v φ) :
    ∀ {p : Program α}, p.ReadsOnly → p.Follows a post φ
  | done v, _ => hpost v
  | call _ _, h => fun answer _ => ⟨φ, .read h.1 hφ ha, (h.2 answer).follows hφ ha hpost⟩

/-- A sequence whose first part only reads follows the protocol if its second part does. -/
theorem ReadsOnly.follows_bind {p : Program α} {f : α → Program β} {post : β → Phase → Prop}
    (h : p.ReadsOnly) (hφ : φ.MayRead) (ha : a.isDelete = false)
    (hf : ∀ v, (f v).Follows a post φ) : (p.bind f).Follows a post φ :=
  (h.follows hφ ha hf).bind

end Program

/-! ## Executions -/

theorem Purpose.Suits.isDelete {k : Purpose} {a : Activity} (h : k.Suits a) :
    a.isDelete = false := by
  cases a <;> first | rfl | cases k <;> cases h

/-- The count of a recorded run moves nothing. -/
theorem Passage.counted {k : Purpose} {a : Activity} {x : Assignment} {event : Counter}
    (h : k.Suits a) : Passage a (k.afterRecord x) (.count event) () (k.afterRecord x) := by
  cases k with
  | trigger now rest next =>
    cases a with
    | cycle template => exact .tally
    | _ => cases h
  | initial | rerun => exact .read rfl trivial h.isDelete

namespace Assignment

open Program

/-- What an execution for a purpose leaves its activity in: the phase after a record, or the one
after a failure, or the phase it began in if it has submitted nothing. -/
def Settles (x : Assignment) (k : Purpose) (φ : Phase) : Except MonitorError Run → Phase → Prop
  | .ok _, φ' => φ' = k.afterRecord x
  | .error _, φ' => φ' = k.afterFailure x ∨ φ' = φ

theorem afterSubmission_follows {a : Activity} {k : Purpose} (x : Assignment) (id : Uuid)
    (job : JobRef) (φ : Phase) (hk : k.Suits a) :
    (x.afterSubmission id job).Follows a (x.Settles k φ) (.accepted k x id job) := by
  refine fun now _ => ⟨_, .stamp hk, fun answer _ => ?_⟩
  cases answer with
  | error e => exact ⟨_, .refuse hk, fun _ _ => ⟨_, .compensate hk, .inl rfl⟩⟩
  | ok => exact ⟨_, .record hk, fun _ _ => ⟨_, .counted hk, rfl⟩⟩

/-- An execution follows the protocol from any phase in which its identifier may be drawn. -/
theorem follows {a : Activity} {k : Purpose} {φ : Phase} (x : Assignment) (hk : k.Suits a)
    (hopen : ∀ id, Passage a φ .freshId id (.submitting k x id))
    (hwaste : ∀ id, Passage a φ .freshId id φ) :
    x.operation.run.Follows a (x.Settles k φ) φ := by
  rw [operation_run]
  refine fun id _ => ?_
  split
  · exact ⟨φ, hwaste id, .inr rfl⟩
  · refine ⟨_, hopen id, fun answer _ => ?_⟩
    cases answer with
    | error e => exact ⟨_, .reject hk, .inl rfl⟩
    | ok job => exact ⟨_, .submit hk, x.afterSubmission_follows id job φ hk⟩

end Assignment

end TraceWatch
