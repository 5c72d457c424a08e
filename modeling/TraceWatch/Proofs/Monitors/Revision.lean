import Mathlib.Data.List.Permutation
import TraceWatch.Proofs.Monitors.Definition
import TraceWatch.Proofs.System.Moves

/-!
# Two edits of one monitor

An edit writes the fields that it does not set back as it has found them. So of two edits of one
monitor that both succeed, the second to write adds to what the first has written if it has found
the monitor after that; and if it had found the monitor before, then whatever only the first sets is
as it was before both: `Site.edits_in_turn`.
-/

namespace TraceWatch

/-! ## Merging -/

section

variable {α : Type}

/-- What becomes of a field that two requests may hold, if none of them is lost: a value that one of
them holds, or else the one it had. -/
def Merges (x y : Option α) (old new : α) : Prop :=
  (x = none ∧ y = none ∧ new = old) ∨ x = some new ∨ y = some new

theorem merges_iff {x y : Option α} {old base : α} :
    Merges x y old (y.getD base) ↔ y.getD base = y.getD (x.getD old) := by
  cases y with
  | some b => simp [Merges]
  | none =>
    cases x with
    | none => simp [Merges]
    | some a => simp [Merges, eq_comm]

theorem orElse_eq_getD (x y : Option α) : (x <|> y) = (x.map some).getD y := by
  cases x <;> rfl

end

/-- The new definition is what two edits together make of the old one, and neither is lost. -/
structure Merged (f g : Edit) (old new : Definition) : Prop where
  displayName : Merges f.displayName g.displayName old.displayName new.displayName
  evaluators : Merges f.evaluators g.evaluators old.evaluators new.evaluators
  samplingRate : Merges f.samplingRate g.samplingRate old.samplingRate new.samplingRate
  interval : Merges (f.interval.map some) (g.interval.map some) old.interval new.interval

/-- What the second of two edits makes of any definition merges the two exactly if it is what the
second makes of the one that the first has written. -/
theorem merged_iff {f g : Edit} {old base : Definition} :
    Merged f g old (g.revise base) ↔ g.revise base = g.revise (f.revise old) := by
  have hinterval : Merges (f.interval.map some) (g.interval.map some) old.interval
      (g.interval <|> base.interval) ↔
        (g.interval <|> base.interval) = (g.interval <|> (f.interval <|> old.interval)) := by
    rw [orElse_eq_getD, orElse_eq_getD, orElse_eq_getD]
    exact merges_iff
  simp only [Edit.revise, Definition.mk.injEq]
  constructor
  · intro h
    exact ⟨merges_iff.1 h.displayName, merges_iff.1 h.evaluators, merges_iff.1 h.samplingRate,
      hinterval.1 h.interval⟩
  · rintro ⟨hdisplay, hevaluators, hrate, hint⟩
    exact ⟨merges_iff.2 hdisplay, merges_iff.2 hevaluators, merges_iff.2 hrate, hinterval.2 hint⟩

/-! ## The write of an edit -/

open Program in
/-- An edit that succeeds has found a monitor and writes once, and otherwise it only reads. -/
theorem Service.update_plays_ok {org name : String} {edit : Edit} {moves : List Move}
    {shown : MonitorView} (h : Plays (update org name edit).run moves (.ok shown)) :
    ∃ c x first before after rest, x.id = c.id ∧
      moves = first ++ ⟨.store (.updateDefinition x), .ok (), before, after⟩ :: rest ∧
      Looks org name (some c) first ∧ (∀ move ∈ first, move.call.isRead = true) ∧
      ∀ move ∈ rest, move.call.isRead = true := by
  rw [update_run] at h
  obtain ⟨found, s₁, s₁', moves, rfl, -, h⟩ := h.of_find
  cases found with
  | none => cases h.of_done.2
  | some c =>
    dsimp only at h
    cases hcheck : edit.check c with
    | error violation =>
      rw [hcheck] at h
      cases h.of_done.2
    | ok =>
      rw [hcheck] at h
      obtain ⟨now, s₂, s₂', moves, rfl, -, h⟩ := h.of_call
      obtain ⟨answer, before, after, rest, rfl, -, h⟩ := h.of_call
      cases answer with
      | error e => cases h.of_done.2
      | ok =>
        refine ⟨c, { edit.apply c with updatedAt := now }, [_, _], before, after, rest, rfl, rfl,
          ⟨s₁, s₁', .head _⟩, ?_, (readsOnly_get org name).makes.of_plays h⟩
        exact List.forall_mem_cons.2 ⟨rfl, List.forall_mem_singleton.2 rfl⟩

/-- A call that only reads gives no definition. -/
theorem Event.defines?_of_isRead {k : Nat} {a : Activity} {c : Call} {answer : c.Answer}
    (h : c.isRead = true) (id : Uuid) : (call k a c answer).defines? id = none := by
  cases hdefines : (call k a c answer).defines? id with
  | none => rfl
  | some d =>
    obtain ⟨_, _, x, heq, -⟩ := of_defines? hdefines
    cases heq
    cases h

/-- What gives the monitor a definition. -/
def definitions (id : Uuid) (es : List Event) : List Event :=
  es.filter fun e => (e.defines? id).isSome

/-- Moves that only read give no definition. -/
theorem definitions_of_isRead {k : Nat} {a : Activity} {moves : List Move}
    (h : ∀ move ∈ moves, move.call.isRead = true) (id : Uuid) :
    definitions id (moves.map (·.event k a)) = [] := by
  refine List.filter_eq_nil_iff.2 fun e he => ?_
  obtain ⟨move, hmove, rfl⟩ := List.mem_map.1 he
  simp [Move.event, Event.defines?_of_isRead (h move hmove)]

namespace Site

variable {s s' : Site} {es : List Event} {m m' : Monitor} {edit f g : Edit} {i j k : Nat}

/-- The task has begun in the meantime, and it is an edit of the monitor and has succeeded. -/
structure IsEdit (s s' : Site) (m : Monitor) (edit : Edit) (k : Nat) : Prop where
  later : s.tasks.length ≤ k
  succeeded : ∃ task, s'.tasks[k]? = some task ∧ task.activity = .update m.org m.name edit ∧
    task.HasSucceeded

/-- Such a task has found a monitor of the name, and then it has given that a definition, once. -/
theorem IsEdit.exists_write (hk : IsEdit s s' m edit k) (h : s.History es s') :
    ∃ c d w,
      .call k (.update m.org m.name edit) (.store (.findByName m.org m.name)) (.ok (some c)) ∈ es ∧
      (c.id = m.id → w.Writes m k edit d) ∧
      (definitions c.id es).filter (·.caller = some k) = [w] := by
  obtain ⟨hlater, ⟨a, rest⟩, htask, rfl, hok⟩ := hk
  obtain ⟨shown, rfl⟩ : ∃ shown : MonitorView, rest = .done (.ok shown) := hok
  obtain ⟨moves, hmoves⟩ := h.exists_moves hlater htask
  obtain ⟨c, x, first, before, after, rest, hx, rfl, ⟨s₁, s₂, hlooks⟩, hfirst, hrest⟩ :=
    Service.update_plays_ok hmoves.leads.plays
  refine ⟨c, _, _, hmoves.event_mem (List.mem_append_left _ hlooks),
    fun hid => .mk x (hx.trans hid), ?_⟩
  rw [definitions, List.filter_comm, hmoves.events, List.map_append, List.map_cons,
    List.filter_append, List.filter_cons_of_pos, ← definitions, ← definitions,
    definitions_of_isRead hfirst, definitions_of_isRead hrest]
  · rfl
  · exact congrArg Option.isSome (Event.defines?_update hx)

end Site

/-! ## The order of the writes -/

/-- If two tasks give the monitor its definition, each once, then one comes after the other. -/
theorem definitions_eq_or_eq {id : Uuid} {es : List Event} {i j : Nat} {w w' : Event}
    (hij : i ≠ j)
    (hothers : ∀ e ∈ es, (e.defines? id).isSome = true → e.caller = some i ∨ e.caller = some j)
    (hi : (definitions id es).filter (·.caller = some i) = [w])
    (hj : (definitions id es).filter (·.caller = some j) = [w']) :
    definitions id es = [w, w'] ∨ definitions id es = [w', w] := by
  have hperm := List.filter_append_perm (·.caller = some i) (definitions id es)
  have hrest : (definitions id es).filter (fun e => !decide (e.caller = some i)) = [w'] := by
    rw [← hj]
    refine List.filter_congr fun e he => ?_
    obtain ⟨hmem, hdefines⟩ := List.mem_filter.1 he
    rcases hothers e hmem hdefines with hcaller | hcaller
    · simp [hcaller, hij]
    · simp [hcaller, Ne.symm hij]
  rw [hi, hrest] at hperm
  exact List.perm_pair.1 hperm.symm

/-- Two events that alone give the monitor its definition cut the history in three. -/
theorem of_definitions_eq {id : Uuid} {es : List Event} {w w' : Event}
    (h : definitions id es = [w, w']) :
    ∃ es₁ es₂ es₃, es = es₁ ++ w :: (es₂ ++ w' :: es₃) ∧ (∀ e ∈ es₁, e.defines? id = none) ∧
      (∀ e ∈ es₂, e.defines? id = none) ∧ ∀ e ∈ es₃, e.defines? id = none := by
  have hnone : ∀ e : Event, ¬ (e.defines? id).isSome = true → e.defines? id = none :=
    fun e he => by simpa using he
  obtain ⟨es₁, rest, rfl, hes₁, -, hrest⟩ := List.filter_eq_cons_iff.1 h
  obtain ⟨es₂, es₃, rfl, hes₂, -, hes₃⟩ := List.filter_eq_cons_iff.1 hrest
  exact ⟨es₁, es₂, es₃, rfl, fun e he => hnone e (hes₁ e he), fun e he => hnone e (hes₂ e he),
    fun e he => hnone e (List.filter_eq_nil_iff.1 hes₃ e he)⟩

/-! ## What the second edit has found -/

theorem hasFound_append {k : Nat} {c : Monitor} {es es' : List Event} :
    HasFound k c (es ++ es') ↔ HasFound k c es ∨ HasFound k c es' := by
  simp only [HasFound, List.mem_append, exists_or]

/-- Nobody finds anything with the write of an edit. -/
theorem HasFound.of_cons {k i : Nat} {c m : Monitor} {edit : Edit} {d : Definition} {w : Event}
    {es : List Event} (h : HasFound k c (w :: es)) (hw : w.Writes m i edit d) :
    HasFound k c es := by
  obtain ⟨a, hfound⟩ := h
  rcases List.mem_cons.1 hfound with rfl | hfound
  · cases hw
  · exact ⟨a, hfound⟩

/-- What a task has found it has found since it began. -/
theorem HasFound.since {k : Nat} {c : Monitor} {es es' : List Event}
    (h : HasFound k c (es ++ es')) (hbegan : ∀ e ∈ es, e.caller ≠ some k) :
    HasFound k c es' := by
  refine (hasFound_append.1 h).resolve_left fun ⟨a, hfound⟩ => ?_
  exact hbegan _ hfound rfl

/-- Of two edits of a monitor the first, as task `i`, writes with `w` what it makes of the
definition at the beginning. The second, as task `j`, writes with `w'` what it makes of the copy
that it has found: after that, and then it adds to the first, or before that, and then it does not
know of it. So they are merged exactly if the second has the effect of one after the first. -/
structure InTurn (m : Monitor) (d : Definition) (i : Nat) (f : Edit) (j : Nat) (g : Edit)
    (es₁ : List Event) (w : Event) (es₂ : List Event) (w' : Event) : Prop where
  first : w.Writes m i f (f.revise m.definition)
  second : w'.Writes m j g d
  found : ∃ c, c.id = m.id ∧ d = g.revise c.definition ∧
    ((HasFound j c es₂ ∧ c.definition = f.revise m.definition) ∨
      (HasFound j c es₁ ∧ c.definition = m.definition))
  merged : Merged f g m.definition d ↔ d = g.revise (f.revise m.definition)

namespace Scene

/-- Two edits that alone give a stored monitor its definition do so in turn. -/
theorem History.inTurn {w₀ : Commons} {s s' : Scene} {es₀ es₁ es₂ es₃ : List Event}
    {w w' : Event} {m m' : Monitor} {i j : Nat} {f g : Edit} {d₁ d : Definition}
    (h₀ : (ofCommons w₀).History es₀ s) (hs : s.Reachable) (hm : m ∈ s.commons.store.monitors)
    (h : s.History (es₁ ++ w :: (es₂ ++ w' :: es₃)) s')
    (hbegan : ∀ e ∈ es₀, e.caller ≠ some i ∧ e.caller ≠ some j)
    (hw : w.Writes m i f d₁) (hw' : w'.Writes m j g d)
    (hes₁ : ∀ e ∈ es₁, e.defines? m.id = none) (hes₂ : ∀ e ∈ es₂, e.defines? m.id = none)
    (hes₃ : ∀ e ∈ es₃, e.defines? m.id = none)
    (hm' : m' ∈ s'.commons.store.monitors) (heq : m'.id = m.id) :
    InTurn m m'.definition i f j g es₁ w es₂ w' := by
  obtain ⟨u, u₁, h₁, hfirst, hrest⟩ := h.split_cons
  obtain ⟨v, v₁, h₂, hsecond, h₃⟩ := hrest.split_cons
  have hu := hs.history h₁
  have hu₁ := hu.step hfirst
  have hv := hu₁.history h₂
  have hstart : s.DefinedAs m.id m.definition := hs.stores hm rfl
  -- the first edit has found the definition at the beginning
  obtain ⟨c₁, hc₁, hfound₁, rfl⟩ := (h₀.append h₁).written hfirst hw
  have hcopy₁ : c₁.definition = m.definition :=
    hstart.found hs h₁ hes₁ (hfound₁.since fun e he => (hbegan e he).1) hc₁
  rw [hcopy₁] at hw
  have hmiddle : u₁.DefinedAs m.id (f.revise m.definition) :=
    (hstart.history hs h₁ hes₁).write hu hfirst hw
  -- and the second what was there when it looked
  obtain ⟨c, hc, hfound, rfl⟩ := ((h₀.append h₁).snoc hfirst).append h₂ |>.written hsecond hw'
  have hcopy : (HasFound j c es₂ ∧ c.definition = f.revise m.definition) ∨
      (HasFound j c es₁ ∧ c.definition = m.definition) := by
    rw [List.append_assoc, List.append_assoc] at hfound
    rcases hasFound_append.1 (hfound.since fun e he => (hbegan e he).2) with hearly | hlate
    · exact .inr ⟨hearly, hstart.found hs h₁ hes₁ hearly hc⟩
    · have hlate := hlate.of_cons hw
      exact .inl ⟨hlate, hmiddle.found hu₁ h₂ hes₂ hlate hc⟩
  have hend : v₁.DefinedAs m.id (g.revise c.definition) :=
    (hmiddle.history hu₁ h₂ hes₂).write hv hsecond hw'
  rw [(hend.history (hv.step hsecond) h₃ hes₃).stored m' hm' heq]
  exact ⟨hw, hw', ⟨c, hc, rfl, hcopy⟩, merged_iff⟩

/-- As long as a monitor is stored it is what is found under its name. -/
theorem History.found_id {s s' : Scene} {es : List Event} {m : Monitor} {k : Nat} {a : Activity}
    {found : Option Monitor} (h : s.History es s') (hs : s.Reachable)
    (hm : m ∈ s.commons.store.monitors) (hpresent : s'.commons.store.HasMonitor m.id)
    (he : .call k a (.store (.findByName m.org m.name)) (.ok found) ∈ es) :
    ∃ c, found = some c ∧ c.id = m.id := by
  obtain ⟨es₁, u, u', es₂, rfl, hbefore, hstep, hafter⟩ := h.of_mem he
  have hspent := hs.spent_of_monitor ⟨m, hm, rfl⟩
  have hthere : u.commons.store.HasMonitor m.id := by
    by_contra hgone
    exact (hspent.history hbefore).not_hasMonitor ((History.nil.snoc hstep).append hafter) hgone
      hpresent
  obtain ⟨c, -, hfind, horigin⟩ :=
    ((hs.fixes m (.inl hm)).history hbefore).findByName_eq (hs.history hbefore) hthere
  exact ⟨c, hstep.findByName_eq.symm.trans hfind, (Monitor.identity_eq horigin).1⟩

end Scene

/-! ## The statement -/

namespace Site

variable {s s' : Site} {es : List Event} {m m' : Monitor} {f g : Edit} {i j : Nat}

/-- Two edits of a monitor that both succeed, while nobody else edits it, write one after the other,
and the definition that the monitor has in the end is what the second writes. Neither is lost
exactly if that is what the second makes of what the first has written: so it is if the second has
found the monitor after that, and otherwise only by chance. -/
theorem edits_in_turn (hs : s.Reachable) (hm : m ∈ s.commons.store.monitors)
    (h : s.History es s') (hm' : m' ∈ s'.commons.store.monitors) (heq : m'.id = m.id)
    (hij : i ≠ j) (hi : IsEdit s s' m f i) (hj : IsEdit s s' m g j)
    (hothers : ∀ e ∈ es, (e.defines? m.id).isSome = true →
      e.caller = some i ∨ e.caller = some j) :
    ∃ es₁ w es₂ w' es₃, es = es₁ ++ w :: (es₂ ++ w' :: es₃) ∧
      (InTurn m m'.definition i f j g es₁ w es₂ w' ∨
        InTurn m m'.definition j g i f es₁ w es₂ w') := by
  obtain ⟨s₀, es₀, hs₀, h₀⟩ := hs
  obtain ⟨u, hu, hseen⟩ := h₀.exists_scene hs₀.tasks
  obtain ⟨v, hv, hseen'⟩ := hseen.history h
  rw [← hseen.commons] at hm
  rw [← hseen'.commons] at hm'
  have hreachable : u.Reachable := ⟨_, es₀, hs₀.store, hs₀.holder, hu⟩
  have hbegan : ∀ e ∈ es₀, e.caller ≠ some i ∧ e.caller ≠ some j := fun e he =>
    ⟨fun hcaller => Nat.not_lt.2 hi.later (h₀.caller_lt he hcaller),
      fun hcaller => Nat.not_lt.2 hj.later (h₀.caller_lt he hcaller)⟩
  have hwrite : ∀ {k edit}, IsEdit s s' m edit k → ∃ d w, w.Writes m k edit d ∧
      (definitions m.id es).filter (·.caller = some k) = [w] := by
    intro k edit hk
    obtain ⟨c, d, w, hfound, hw, hfilter⟩ := hk.exists_write h
    obtain ⟨_, hsame, hid⟩ := hv.found_id hreachable hm ⟨m', hm', heq⟩ hfound
    cases hsame
    exact ⟨d, w, hw hid, hid ▸ hfilter⟩
  obtain ⟨d, w, hw, hfilter⟩ := hwrite hi
  obtain ⟨d', w', hw', hfilter'⟩ := hwrite hj
  rcases definitions_eq_or_eq hij hothers hfilter hfilter' with horder | horder
  · obtain ⟨es₁, es₂, es₃, rfl, hes₁, hes₂, hes₃⟩ := of_definitions_eq horder
    exact ⟨es₁, w, es₂, w', es₃, rfl,
      .inl (hu.inTurn hreachable hm hv hbegan hw hw' hes₁ hes₂ hes₃ hm' heq)⟩
  · obtain ⟨es₁, es₂, es₃, rfl, hes₁, hes₂, hes₃⟩ := of_definitions_eq horder
    exact ⟨es₁, w', es₂, w, es₃, rfl,
      .inr (hu.inTurn hreachable hm hv (fun e he => (hbegan e he).symm) hw' hw hes₁ hes₂ hes₃ hm'
        heq)⟩

/-- An edit of the display name and one of the interval have both found the monitor when the first
of them writes. -/
def overlapping : List Turn :=
  [.newcomer (.update "acme" "tone" ⟨some "Tone of voice", none, none, none⟩),
    .newcomer (.update "acme" "tone" ⟨none, none, none, some 10⟩), .task 1, .task 2] ++
    List.replicate 4 (.task 1) ++ List.replicate 4 (.task 2)

/-- Of two edits the second of which undoes the first: the display name is again what it was. -/
theorem edits_in_turn_overlapping :
    let s := ((holding [] ⟨7200, 0⟩).after .accepting
      (Turn.alone (.create "evaluation" "acme" (.tone "tone" none)) 0 6)).2
    let s' := s.after .accepting overlapping
    let f : Edit := ⟨some "Tone of voice", none, none, none⟩
    let g : Edit := ⟨none, none, none, some 10⟩
    ∃ m ∈ s.commons.store.monitors, ∃ m' ∈ s'.2.commons.store.monitors, m'.id = m.id ∧
      m'.displayName = "tone" ∧ ¬ Merged f g m.definition m'.definition ∧
      IsEdit s s'.2 m f 1 ∧ IsEdit s s'.2 m g 2 ∧
      ∃ es₁ w es₂ w' es₃, s'.1 = es₁ ++ w :: (es₂ ++ w' :: es₃) ∧
        (InTurn m m'.definition 1 f 2 g es₁ w es₂ w' ∨
          InTurn m m'.definition 2 g 1 f es₁ w es₂ w') := by
  intro s s' f g
  obtain ⟨m, hm, m', hm', horg, hname, heq, hdisplay, hothers⟩ :
      ∃ m ∈ s.commons.store.monitors, ∃ m' ∈ s'.2.commons.store.monitors,
        m.org = "acme" ∧ m.name = "tone" ∧ m'.id = m.id ∧ m'.displayName = "tone" ∧
        ∀ e ∈ s'.1, (e.defines? m.id).isSome = true → e.caller = some 1 ∨ e.caller = some 2 := by
    decide +kernel
  have hf : IsEdit s s'.2 m f 1 := by
    refine ⟨by decide +kernel, _, List.getElem?_eq_getElem (by decide +kernel), ?_,
      by decide +kernel⟩
    rw [horg, hname]
    rfl
  have hg : IsEdit s s'.2 m g 2 := by
    refine ⟨by decide +kernel, _, List.getElem?_eq_getElem (by decide +kernel), ?_,
      by decide +kernel⟩
    rw [horg, hname]
    rfl
  refine ⟨m, hm, m', hm', heq, hdisplay, fun hmerged => ?_, hf, hg, ?_⟩
  · rcases hmerged.displayName with ⟨hleft, -, -⟩ | hheld | hheld
    · cases hleft
    · exact absurd ((Option.some.inj hheld).trans hdisplay) (by decide)
    · cases hheld
  · exact edits_in_turn (reachable_after (by decide +kernel)) hm (history_after (by decide +kernel))
      hm' heq (by decide) hf hg hothers

end Site

end TraceWatch
