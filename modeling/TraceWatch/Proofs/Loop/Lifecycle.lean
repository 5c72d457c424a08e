import Mathlib.Data.Nat.Find
import TraceWatch.Proofs.Loop.Upkeep

/-!
# The life of a loop

A scheduler obeys: a request to start is granted if the scheduler is enabled and none of its loops
is alive, a loop that is told to stop finishes its unit of work and ends, a request to stop returns
when it has, and a scheduler without a loop does nothing (`Background.scheduler_obeys`). All of it
rests on where a scheduler keeps what it does (`Background.Keeps`), on cycles being heeding
(`Service.cycle_heeding`), and on how a loop stands still until its next move (`Background.Still`).
That a loop ends is a statement about infinite histories in which nobody waits for ever
(`Background.Course.IsFair`); it is proved by induction on what is left of the cycle of the loop.
-/

namespace TraceWatch

namespace Background

variable {b b' b'' : Background} {hs hs' : List Happening} {h : Happening} {i k : Nat}
  {l l' : BackgroundLoop} {move : LoopMove} {s : Site}

/-! ## A loop that does not move -/

/-- A loop has not moved, though it may have been told to stop. -/
structure Still (b : Background) (l : BackgroundLoop) (b' : Background) (l' : BackgroundLoop) :
    Prop where
  task : l'.task = l.task
  cycles : l'.cycles = l.cycles
  told : b.isTold l = true → b'.isTold l' = true
  rest : ∀ k task, l.IsAt k → b.site.tasks[k]? = some task → b'.site.tasks[k]? = some task
  template : b'.template = b.template
  timer : b.timer ≤ b'.timer

namespace Still

theorem refl : b.Still l b l := ⟨rfl, rfl, id, fun _ _ _ => id, rfl, Nat.le_refl _⟩

theorem alive (h : b.Still l b' l') : l'.IsAlive ↔ l.IsAlive := by
  rw [BackgroundLoop.IsAlive, h.task, BackgroundLoop.IsAlive]

theorem isAt (h : b.Still l b' l') : l'.IsAt k ↔ l.IsAt k := by
  constructor
  · exact fun hat => ⟨h.alive.1 hat.alive, h.cycles ▸ hat.head⟩
  · exact fun hat => ⟨h.alive.2 hat.alive, h.cycles ▸ hat.head⟩

theorem trans {l'' : BackgroundLoop} (h : b.Still l b' l') (h' : b'.Still l' b'' l'') :
    b.Still l b'' l'' where
  task := h'.task.trans h.task
  cycles := h'.cycles.trans h.cycles
  told := h'.told ∘ h.told
  rest k task hat htask := h'.rest k task (h.isAt.2 hat) (h.rest k task hat htask)
  template := h'.template.trans h.template
  timer := Nat.le_trans h.timer h'.timer

end Still

/-- A loop stands still while others get on. -/
theorem Keeps.still (hb : b.Keeps hs) (hstep : b.Step h b') (hl : b.loops[i]? = some l)
    (hnot : ¬ h.IsMoveOf i) : ∃ l', b'.loops[i]? = some l' ∧ b.Still l b' l' := by
  have same : b.Still l b l := .refl
  cases hstep with
  | elsewhere he hstep =>
    refine ⟨l, hl, same.task, same.cycles, same.told, fun k task hat htask => ?_, rfl, same.timer⟩
    have howns : b.Owns k := ⟨l, List.mem_of_getElem? hl, List.mem_of_mem_head? hat.head⟩
    exact (hstep.frame (fun heq => he k heq howns) htask).1
  | passes milliseconds =>
    exact ⟨l, hl, same.task, same.cycles, same.told, same.rest, rfl, Nat.le_add_right _ _⟩
  | cancels token =>
    refine ⟨l, hl, same.task, same.cycles, fun htold => ?_, same.rest, rfl, same.timer⟩
    simp only [isTold, List.contains_cons, Bool.or_eq_true] at htold ⊢
    exact htold.imp_right .inr
  | starts token hidle =>
    rw [start_eq]
    split
    · have hlt := (List.getElem?_eq_some_iff.1 hl).1
      exact ⟨l, (List.getElem?_append_left hlt).trans hl, same.task, same.cycles, same.told,
        same.rest, rfl, same.timer⟩
    · exact ⟨l, hl, same⟩
  | asks => exact ⟨l, hl, same⟩
  | stops hidle =>
    refine ⟨_, (stop_loops b i).trans (by rw [hl, Option.map_some]), ?_⟩
    split
    · refine ⟨rfl, rfl, fun _ => ?_, same.rest, rfl, same.timer⟩
      rw [isTold, BackgroundLoop.tell, Bool.true_or]
    · exact ⟨rfl, rfl, same.told, same.rest, rfl, same.timer⟩
  | stopped => exact ⟨l, hl, same.task, same.cycles, same.told, same.rest, rfl, same.timer⟩
  | @loop j l₁ _ move _ hl₁ hmove =>
    have hij : j ≠ i := fun heq => hnot ⟨move, by rw [heq]⟩
    refine ⟨l, (List.getElem?_set_ne hij).trans hl, rfl, rfl, id, fun k _ hat => ?_, rfl,
      same.timer⟩
    exact absurd (hb.single hl₁ hmove.alive hl hat.alive) hij

theorem Keeps.still_history (hb : b.Keeps hs) (h : b.History hs' b') (hl : b.loops[i]? = some l)
    (hnot : ∀ h ∈ hs', ¬ h.IsMoveOf i) :
    b'.Keeps (hs ++ hs') ∧ ∃ l', b'.loops[i]? = some l' ∧ b.Still l b' l' := by
  induction h with
  | nil => exact ⟨(List.append_nil hs).symm ▸ hb, l, hl, .refl⟩
  | @snoc hs' h b' b'' _ hstep ih =>
    obtain ⟨hbefore, hlast⟩ := List.forall_mem_append.1 hnot
    obtain ⟨hb', l', hl', hstill⟩ := ih hbefore
    obtain ⟨l'', hl'', hstill'⟩ := hb'.still hstep hl' (hlast _ (.head _))
    exact ⟨List.append_assoc hs hs' [h] ▸ hb'.step hstep, l'', hl'', hstill.trans hstill'⟩

/-! ## A loop that has been told to stop -/

/-- A loop that was told to stop after the answers `before` is on its way to its end. -/
structure Leaves (template : String) (before : List Exchange) (i : Nat) (hs : List Happening)
    (b : Background) (l : BackgroundLoop) : Prop where
  template_eq : b.template = template
  loop : b.loops[i]? = some l
  told : b.isTold l = true
  rest : ∀ k, l.IsAt k → b.site.Settled k ∨ ∃ rest,
    b.site.tasks[k]? = some ⟨.cycle template, rest⟩ ∧
      rest.Closing template before (exchangesOf i hs)
  closes : ClosesOnly template before (exchangesOf i hs)
  noCycle : .loop i .ticks ∉ hs

theorem Moves.not_ticks_of_told (h : b.Moves l move s l') (htold : b.isTold l = true) :
    move ≠ .ticks := by
  rintro rfl
  cases h with
  | ticks _ hturn => cases htold.symm.trans (LoopTask.turn_eq_ticks.1 hturn).2.1

namespace Leaves

variable {template : String} {before : List Exchange}

theorem start (hb : b.Keeps hs) (hl : b.loops[i]? = some l) (htold : b.isTold l = true) :
    Leaves b.template (exchangesOf i hs) i [] b l where
  template_eq := rfl
  loop := hl
  told := htold
  rest k hat := by
    rcases hb.cycles i l hl k (List.mem_of_mem_head? hat.head) with ⟨-, rest, htask, hrest⟩ | hk
    · exact .inr ⟨rest, htask, hrest.closing⟩
    · exact .inl hk
  closes := ⟨[], [], rfl, .inl rfl, List.forall_mem_nil _⟩
  noCycle := List.not_mem_nil

/-- What is settled stays so while the loop does. -/
theorem of_still {h' : Happening} (h : Leaves template before i hs b l) (hb : b.Keeps hs')
    (hstep : b.Step h' b') (hnot : ¬ h'.IsMoveOf i) :
    ∃ l', Leaves template before i (hs ++ [h']) b' l' := by
  obtain ⟨l', hl', hstill⟩ := hb.still hstep h.loop hnot
  have hlog : exchangesOf i (hs ++ [h']) = exchangesOf i hs :=
    exchangesOf_concat_of_none (Happening.exchange?_of_not_isMoveOf hnot)
  refine ⟨l', hstill.template.trans h.template_eq, hl', hstill.told h.told, fun k hat => ?_,
    hlog ▸ h.closes, fun hmem => ?_⟩
  · have hat := hstill.isAt.1 hat
    rcases h.rest k hat with hk | ⟨rest, htask, hrest⟩
    · exact .inl (settled_step hstep hk)
    · exact .inr ⟨rest, hstill.rest k _ hat htask, hlog ▸ hrest⟩
  · rcases List.mem_append.1 hmem with hmem | hmem
    · exact h.noCycle hmem
    · exact hnot ⟨.ticks, (List.mem_singleton.1 hmem).symm⟩

/-- A move of a loop that is on its way to its end brings it nearer to it. -/
theorem of_move (h : Leaves template before i hs b l) (hmove : b.Moves l move s l') :
    Leaves template before i (hs ++ [.loop i move])
      { b with site := s, loops := b.loops.set i l' } l' := by
  have hself : (b.loops.set i l')[i]? = some l' :=
    List.getElem?_set_self (List.getElem?_eq_some_iff.1 h.loop).1
  have htold : ({ b with site := s, loops := b.loops.set i l' } : Background).isTold l' = true := by
    rw [isTold, hmove.told_eq, hmove.token_eq]
    exact h.told
  have hnoCycle : .loop i .ticks ∉ hs ++ [.loop i move] := by
    refine fun hmem => (List.mem_append.1 hmem).elim h.noCycle fun hmem => ?_
    cases List.mem_singleton.1 hmem
    exact hmove.not_ticks_of_told h.told rfl
  cases hmove with
  | ticks _ hturn => cases h.told.symm.trans (LoopTask.turn_eq_ticks.1 hturn).2.1
  | @works _ k c answer hat hstep hanswer =>
    have hlog := exchangesOf_concat i hs (.loop i (.works c answer))
    rw [Happening.exchange?, if_pos rfl] at hlog
    obtain ⟨next, hold, hnew⟩ := hstep.of_call
    have hclosing : (Program.call c next).Closing template before (exchangesOf i hs) := by
      rcases h.rest k hat with ⟨task, htask, hover, -⟩ | ⟨rest, htask, hrest⟩
      · cases hold.symm.trans htask
        rcases hover with hover | ⟨_, hover⟩ <;> cases hover
      · cases hold.symm.trans htask
        exact hrest
    have hgoes : (next answer).Closing template before (exchangesOf i hs ++ [⟨c, answer⟩]) :=
      hclosing.answered fun heq => Bool.false_ne_true ((hanswer false heq).trans h.told)
    refine ⟨h.template_eq, hself, htold, fun k' hat' => .inr ?_, ?_, hnoCycle⟩
    · obtain rfl : k = k' := Option.some.inj (hat.head.symm.trans hat'.head)
      exact ⟨next answer, h.template_eq ▸ hnew, hlog ▸ hgoes⟩
    · exact hlog ▸ hgoes.closesOnly
  | breaks | ends =>
    refine ⟨h.template_eq, hself, htold,
      fun k hat => absurd hat.alive BackgroundLoop.not_isAlive_finish, ?_, hnoCycle⟩
    rw [exchangesOf_concat_of_none rfl]
    exact h.closes

/-- Whatever happens, a loop that has been told to stop is on its way to its end. -/
theorem step {h' : Happening} (h : Leaves template before i hs b l) (hb : b.Keeps hs')
    (hstep : b.Step h' b') : ∃ l', Leaves template before i (hs ++ [h']) b' l' := by
  by_cases hmove : h'.IsMoveOf i
  · obtain ⟨move, rfl⟩ := hmove
    cases hstep with
    | loop hl hmove =>
      cases hl.symm.trans h.loop
      exact ⟨_, h.of_move hmove⟩
  · exact h.of_still hb hstep hmove

end Leaves

/-- A loop that has been told to stop begins no cycle, and its calls are those of the unit of work
in progress and keep the books after it. -/
theorem Keeps.closes (hb : b.Keeps hs) (hl : b.loops[i]? = some l) (htold : b.isTold l = true)
    (h : b.History hs' b') : .loop i .ticks ∉ hs' ∧
      ClosesOnly b.template (exchangesOf i hs) (exchangesOf i hs') := by
  suffices b'.Keeps (hs ++ hs') ∧ ∃ l', Leaves b.template (exchangesOf i hs) i hs' b' l' by
    obtain ⟨-, l', hleaves⟩ := this
    exact ⟨hleaves.noCycle, hleaves.closes⟩
  induction h with
  | nil => exact ⟨(List.append_nil hs).symm ▸ hb, l, .start hb hl htold⟩
  | @snoc hs' h b' b'' _ hstep ih =>
    obtain ⟨hb', l', hleaves⟩ := ih
    exact ⟨List.append_assoc hs hs' [h] ▸ hb'.step hstep, hleaves.step hb' hstep⟩

/-! ## Fair courses -/

namespace Course

variable {c : Course}

/-- A course that goes on from where a scheduler keeps what it does keeps it. -/
theorem keeps (hb : (c.at' 0).Keeps hs) : ∀ n, ∃ hs', (c.at' n).Keeps hs'
  | 0 => ⟨hs, hb⟩
  | n + 1 =>
    have ⟨_, hb'⟩ := keeps hb n
    ⟨_, hb'.step (c.step n)⟩

/-- A loop stands still until its next move. -/
theorem still_add {n : Nat} (hb : (c.at' 0).Keeps hs) (hl : (c.at' n).loops[i]? = some l) :
    ∀ d, (∀ j < d, ¬ (c.happening (n + j)).IsMoveOf i) →
      ∃ l', (c.at' (n + d)).loops[i]? = some l' ∧ (c.at' n).Still l (c.at' (n + d)) l'
  | 0, _ => ⟨l, hl, .refl⟩
  | d + 1, hothers => by
    obtain ⟨l', hl', hstill⟩ := still_add hb hl d fun j hj => hothers j (Nat.lt_succ_of_lt hj)
    obtain ⟨hs', hb'⟩ := keeps hb (n + d)
    obtain ⟨l'', hl'', hstill'⟩ :=
      hb'.still (c.step (n + d)) hl' (hothers d (Nat.lt_succ_self d))
    exact ⟨l'', hl'', hstill.trans hstill'⟩

/-- In a fair course a loop that is ready makes its next move. -/
theorem exists_move (hfair : c.IsFair) {n : Nat} (hb : (c.at' 0).Keeps hs)
    (hl : (c.at' n).loops[i]? = some l) (hready : (c.at' n).IsReady l) :
    ∃ m l' move s l'', (c.at' n).Still l (c.at' m) l' ∧ (c.at' m).Moves l' move s l'' ∧
      c.at' (m + 1) = { c.at' m with site := s, loops := (c.at' m).loops.set i l'' } ∧
        (c.at' (m + 1)).loops[i]? = some l'' := by
  have hmove : ∃ d, (c.happening (n + d)).IsMoveOf i := by
    obtain ⟨m, hle, hm⟩ := hfair.moves n i l hl hready
    exact ⟨m - n, by rwa [Nat.add_sub_cancel' hle]⟩
  classical
  obtain ⟨l', hl', hstill⟩ := still_add hb hl (Nat.find hmove) fun j hj => Nat.find_min hmove hj
  obtain ⟨move, hhappens⟩ := Nat.find_spec hmove
  have hstep := c.step (n + Nat.find hmove)
  rw [hhappens] at hstep
  generalize hnext : c.at' (n + Nat.find hmove + 1) = next at hstep
  cases hstep with
  | loop hold hmoves =>
    cases hold.symm.trans hl'
    refine ⟨_, _, _, _, _, hstill, hmoves, hnext, ?_⟩
    rw [hnext]
    exact List.getElem?_set_self (List.getElem?_eq_some_iff.1 hl').1

/-- In a fair course a loop that has been told to stop ends, or first a call of its cycle is
answered. -/
theorem ends_or_works (hfair : c.IsFair) {n : Nat} (hb : (c.at' 0).Keeps hs)
    (hl : (c.at' n).loops[i]? = some l) (htold : (c.at' n).isTold l = true) :
    (∃ m l', (c.at' m).loops[i]? = some l' ∧ ¬ l'.IsAlive) ∨
      ∃ m l' k a d next answer, l.IsAt k ∧
        (∀ task, (c.at' n).site.tasks[k]? = some task → task = ⟨a, .call d next⟩) ∧
        (c.at' m).loops[i]? = some l' ∧ (c.at' m).isTold l' = true ∧ l'.IsAt k ∧
        (c.at' m).site.tasks[k]? = some ⟨a, next answer⟩ := by
  by_cases halive : l.IsAlive
  case neg => exact .inl ⟨n, l, hl, halive⟩
  have hready : (c.at' n).IsReady l :=
    ⟨halive, fun _ hwaits => nomatch hwaits.symm.trans (LoopTask.turn_eq_ends.2 ⟨halive, htold⟩)⟩
  obtain ⟨m, l', move, s, l'', hstill, hmoves, hnext, hl''⟩ := exists_move hfair hb hl hready
  have htold' := hstill.told htold
  have hnot := hmoves.not_ticks_of_told htold'
  cases hmoves with
  | ticks => exact absurd rfl hnot
  | breaks | ends => exact .inl ⟨m + 1, _, hl'', BackgroundLoop.not_isAlive_finish⟩
  | @works _ k d answer hat hstep _ =>
    obtain ⟨next, hold, hnew⟩ := hstep.of_call
    have hat' := hstill.isAt.1 hat
    refine .inr ⟨m + 1, l', k, _, d, next, answer, hat', fun task htask => ?_, hl'', ?_, hat, ?_⟩
    · exact Option.some.inj ((hstill.rest k task hat' htask).symm.trans hold)
    · rw [hnext]
      exact htold'
    · rw [hnext]
      exact hnew

/-- In a fair course a loop that has been told to stop ends. -/
theorem ends (hfair : c.IsFair) (hb : (c.at' 0).Keeps hs) {a : Activity}
    (rest : Program (Except MonitorError a.Result)) :
    ∀ n l, (c.at' n).loops[i]? = some l → (c.at' n).isTold l = true →
      (∀ k, l.IsAt k → (c.at' n).site.tasks[k]? = some ⟨a, rest⟩) →
        ∃ m l', (c.at' m).loops[i]? = some l' ∧ ¬ l'.IsAlive := by
  -- by induction on what is left of the cycle
  induction rest with
  | done result =>
    intro n l hl htold htask
    refine (ends_or_works hfair hb hl htold).resolve_right ?_
    rintro ⟨m, l', k, a', d, next, answer, hat, hcall, -⟩
    cases hcall _ (htask k hat)
  | halt =>
    intro n l hl htold htask
    refine (ends_or_works hfair hb hl htold).resolve_right ?_
    rintro ⟨m, l', k, a', d, next, answer, hat, hcall, -⟩
    cases hcall _ (htask k hat)
  | call d next ih =>
    intro n l hl htold htask
    rcases ends_or_works hfair hb hl htold with
      hends | ⟨m, l', k, a', d', next', answer, hat, hcall, hl', htold', hat', hnew⟩
    · exact hends
    · cases hcall _ (htask k hat)
      refine ih answer m l' hl' htold' fun k' hk' => ?_
      obtain rfl : k = k' := Option.some.inj (hat'.head.symm.trans hk'.head)
      exact hnew

/-- A loop that has been told to stop where a fair course begins ends in it. -/
theorem ends_of_told (hfair : c.IsFair) (hb : (c.at' 0).Keeps hs)
    (hl : (c.at' 0).loops[i]? = some l) (htold : (c.at' 0).isTold l = true) :
    ∃ m l', (c.at' m).loops[i]? = some l' ∧ ¬ l'.IsAlive := by
  by_cases hbusy : ∃ k, l.IsAt k
  · obtain ⟨k, hat⟩ := hbusy
    obtain ⟨task, htask⟩ : ∃ task, (c.at' 0).site.tasks[k]? = some task := by
      rcases hb.cycles i l hl k (List.mem_of_mem_head? hat.head) with
        ⟨-, rest, htask, -⟩ | ⟨task, htask, -⟩
      · exact ⟨_, htask⟩
      · exact ⟨task, htask⟩
    refine ends hfair hb task.rest 0 l hl htold fun k' hat' => ?_
    obtain rfl : k = k' := Option.some.inj (hat.head.symm.trans hat'.head)
    exact htask
  · -- it is at no cycle, of which there is nothing left
    have hnone : ∀ k, ¬ l.IsAt k := fun k hat => hbusy ⟨k, hat⟩
    exact ends hfair hb (a := .cycle (c.at' 0).template) .halt 0 l hl htold
      fun k hat => absurd hat (hnone k)

/-- While it waits for the end of a loop, a request to stop waits for that of no other. -/
theorem awaited_of_waits (hwaits : ∀ n, c.happening n ≠ .stopped)
    (hawaited : (c.at' 0).awaited = some i) : ∀ n, (c.at' n).awaited = some i
  | 0 => hawaited
  | n + 1 => by
    have h := awaited_of_waits hwaits hawaited n
    have hnot := hwaits n
    have hstep := c.step n
    generalize c.at' (n + 1) = next at hstep
    generalize c.happening n = happening at hstep hnot
    cases hstep with
    | elsewhere | passes | cancels | loop => exact h
    | starts _ hidle | asks hidle | stops hidle => cases h.symm.trans hidle
    | stopped => exact absurd rfl hnot

/-- In a fair course a request to stop that waits for the end of a loop returns. -/
theorem returns (hfair : c.IsFair) (hb : (c.at' 0).Keeps hs) (hawaited : (c.at' 0).awaited ≠ none) :
    ∃ n, c.happening n = .stopped := by
  obtain ⟨i, hi⟩ := Option.ne_none_iff_exists'.1 hawaited
  obtain ⟨-, l, hl, htold⟩ := hb.awaited i hi
  have htold' : (c.at' 0).isTold l = true := by rw [isTold, htold, Bool.true_or]
  obtain ⟨m, l', hl', hended⟩ := ends_of_told hfair hb hl htold'
  by_contra hnever
  have hi' := awaited_of_waits (not_exists.1 hnever) hi m
  obtain ⟨n, -, hn⟩ := hfair.returns m i l' hi' hl' hended
  exact hnever ⟨n, hn⟩

end Course

/-! ## A scheduler without a loop -/

/-- Nothing that happens is done by the scheduler: no loop of it moves, none is alive at the end, no
cycle of it has the lock, and the site is changed by others only. -/
structure Rests (b : Background) (hs : List Happening) (b' : Background) : Prop where
  unmoved : ∀ h ∈ hs, ∀ i, ¬ h.IsMoveOf i
  dead : ¬ b'.IsAlive
  unheld : ∀ k, b'.Owns k → b'.site.commons.holder ≠ some k
  others : ∀ hs₁ h hs₂ b₁ b₂, hs = hs₁ ++ h :: hs₂ → b.History hs₁ b₁ → b₁.Step h b₂ →
    (∃ e, h = .elsewhere e ∧ ∀ k, e.actor = some k → ¬ b₁.Owns k) ∨ b₂.site = b₁.site

/-- A loop that is not alive does not move. -/
theorem not_isMoveOf_of_dead (hdead : ¬ b.IsAlive) (hstep : b.Step h b') : ¬ h.IsMoveOf i := by
  rintro ⟨move, rfl⟩
  cases hstep with
  | loop hl hmove => exact hdead ⟨_, List.mem_of_getElem? hl, hmove.alive⟩

/-- Without a request to start that is granted no loop gets alive. -/
theorem dead_step (hdead : ¬ b.IsAlive) (hstep : b.Step h b')
    (hnot : ∀ token, h ≠ .starts token true) : ¬ b'.IsAlive := by
  cases hstep with
  | elsewhere | passes | cancels | asks | stopped => exact hdead
  | starts token =>
    have hrefused : b.starts token = false := by
      cases hstarts : b.starts token with
      | false => rfl
      | true => exact absurd (congrArg _ hstarts) (hnot token)
    rw [start_eq, if_neg (by rw [hrefused]; exact Bool.false_ne_true)]
    exact hdead
  | stops =>
    rintro ⟨l, hl, halive⟩
    obtain ⟨i, hi⟩ := List.mem_iff_getElem?.1 hl
    rw [stop_loops] at hi
    obtain ⟨l₀, hl₀, rfl⟩ := Option.map_eq_some_iff.1 hi
    refine hdead ⟨l₀, List.mem_of_getElem? hl₀, ?_⟩
    split at halive <;> exact halive
  | loop hl hmove => exact absurd ⟨_, List.mem_of_getElem? hl, hmove.alive⟩ hdead

/-- What changes the site is a move of a loop, or is done by others. -/
theorem site_of_step (hstep : b.Step h b') : (∃ i, h.IsMoveOf i) ∨
    (∃ e, h = .elsewhere e ∧ ∀ k, e.actor = some k → ¬ b.Owns k) ∨ b'.site = b.site := by
  cases hstep with
  | elsewhere he => exact .inr (.inl ⟨_, rfl, he⟩)
  | loop => exact .inl ⟨_, _, rfl⟩
  | passes | cancels | asks | stops | stopped => exact .inr (.inr rfl)
  | starts =>
    rw [start_eq]
    split <;> exact .inr (.inr rfl)

/-- From the end of a loop until one is started, the scheduler does nothing. -/
theorem Keeps.rests (hb : b.Keeps hs) (hdead : ¬ b.IsAlive) (h : b.History hs' b')
    (hnot : ∀ token, .starts token true ∉ hs') : b.Rests hs' b' := by
  have hrests : ∀ {hs' b'}, b.History hs' b' → (∀ token, .starts token true ∉ hs') →
      b'.Keeps (hs ++ hs') ∧ ¬ b'.IsAlive ∧ ∀ h ∈ hs', ∀ i, ¬ h.IsMoveOf i := by
    intro hs' b' h hnot
    induction h with
    | nil => exact ⟨(List.append_nil hs).symm ▸ hb, hdead, List.forall_mem_nil _⟩
    | @snoc hs' h b' b'' _ hstep ih =>
      obtain ⟨hb', hdead', hunmoved⟩ := ih fun token hmem =>
        hnot token (List.mem_append_left _ hmem)
      have hlast : ∀ token, h ≠ .starts token true := fun token heq =>
        hnot token (List.mem_append_right _ (List.mem_singleton.2 heq.symm))
      refine ⟨List.append_assoc hs hs' [h] ▸ hb'.step hstep, dead_step hdead' hstep hlast, ?_⟩
      exact List.forall_mem_append.2 ⟨hunmoved, List.forall_mem_singleton.2
        fun i => not_isMoveOf_of_dead hdead' hstep⟩
  obtain ⟨hb', hdead', hunmoved⟩ := hrests h hnot
  refine ⟨hunmoved, hdead', fun k hk => hb'.not_held hdead' hk, ?_⟩
  rintro hs₁ happening hs₂ b₁ b₂ rfl - hstep
  refine (site_of_step hstep).resolve_left ?_
  rintro ⟨i, hi⟩
  exact hunmoved happening (List.mem_append_right _ (.head _)) i hi

/-! ## A loop that has just been started -/

/-- The loop can begin a cycle with no time passing, and can until it is told to stop; it does
nothing else before, and it gets its turn. -/
structure BeginsAtOnce (b : Background) (i : Nat) : Prop where
  atOnce : ∃ b', b.Step (.loop i .ticks) b' ∧ b'.timer = b.timer ∧
    b'.site.tasks = b.site.tasks ++ [.new (.cycle b.template)]
  untilTold : ∀ hs b' l, b.History hs b' → (∀ h ∈ hs, ¬ h.IsMoveOf i) → b'.loops[i]? = some l →
    b'.isTold l = false → ∃ b'', b'.Step (.loop i .ticks) b''
  first : ∀ hs b' move b'', b.History hs b' → (∀ h ∈ hs, ¬ h.IsMoveOf i) →
    b'.Step (.loop i move) b'' →
      move = .ticks ∨ move = .ends ∧ ∃ l, b'.loops[i]? = some l ∧ b'.isTold l = true
  soon : ∀ c : Course, c.at' 0 = b → c.IsFair → ∃ n, (c.happening n).IsMoveOf i

/-- A loop that has had no cycle begins one at once if its tick is due. -/
theorem Keeps.beginsAtOnce (hb : b.Keeps hs) (hl : b.loops[i]? = some l) (hnone : l.cycles = [])
    {task : LoopTask} (hturn : b.turn l = .ticks task) : b.BeginsAtOnce i where
  atOnce := ⟨_, .loop hl (.ticks (l.isIdle_of_nil hnone _) hturn (.begins _ _ _)), rfl, rfl⟩
  untilTold hs' b₁ l₁ h hnot hl₁ htold := by
    obtain ⟨-, l', hl', hstill⟩ := hb.still_history h hl hnot
    obtain rfl : l' = l₁ := Option.some.inj (hl'.symm.trans hl₁)
    obtain ⟨halive, -, hdue, -⟩ := LoopTask.turn_eq_ticks.1 hturn
    have hidle : l'.IsIdle b₁.site := l'.isIdle_of_nil (hstill.cycles.trans hnone) _
    have hturn' : b₁.turn l' = .ticks (l'.task.tick b₁.settings.period b₁.timer) := by
      refine LoopTask.turn_eq_ticks.2 ⟨hstill.alive.2 halive, htold, ?_, rfl⟩
      rw [hstill.task]
      exact Nat.le_trans hdue hstill.timer
    exact ⟨_, .loop hl' (.ticks hidle hturn' (.begins _ _ _))⟩
  first hs' b₁ move b₂ h hnot hstep := by
    obtain ⟨-, l', hl', hstill⟩ := hb.still_history h hl hnot
    have hnever : ∀ k, ¬ l'.IsAt k := fun k hat => by
      have hhead := (hstill.isAt.1 hat).head
      rw [hnone] at hhead
      cases hhead
    cases hstep with
    | loop hold hmove =>
      cases hold.symm.trans hl'
      cases hmove with
      | ticks => exact .inl rfl
      | works hat | breaks hat => exact absurd hat (hnever _)
      | ends _ hturn => exact .inr ⟨rfl, l', hl', (LoopTask.turn_eq_ends.1 hturn).2⟩
  soon c hc hfair := by
    subst hc
    have halive : l.IsAlive := (LoopTask.turn_eq_ticks.1 hturn).1
    obtain ⟨n, -, hmove⟩ := hfair.moves 0 i l hl ⟨halive, fun _ h => by cases hturn.symm.trans h⟩
    exact ⟨n, hmove⟩

/-- A loop that is started with a token that has not been cancelled begins a cycle at once. -/
theorem Keeps.begins (hb : b.Keeps hs) {token : Nat} (hlive : b.cancelled.contains token = false)
    (hstep : b.Step (.starts token true) b') : b'.BeginsAtOnce b.loops.length := by
  have hb' := hb.step hstep
  generalize hanswer : true = answer at hstep
  cases hstep with
  | starts _ hidle =>
    rw [start_eq, if_pos hanswer.symm] at hb' ⊢
    exact hb'.beginsAtOnce List.getElem?_concat_length rfl
      (LoopTask.turn_eq_ticks.2 ⟨rfl, hlive, Nat.le_refl _, rfl⟩)

/-! ## The statement -/

/-- What a scheduler does on request, after what has happened to it and in what may happen from now
on. -/
structure Obeys (b : Background) (hs : List Happening) : Prop where
  /-- A loop is started if the scheduler is enabled and none of its loops is alive. -/
  starts : ∀ token answer b', b.Step (.starts token answer) b' →
    (answer = true ↔ b.settings.enabled = true ∧ ¬ b.IsAlive)
  /-- It tells whether a loop of it is alive. -/
  asks : ∀ answer b', b.Step (.asks answer) b' → (answer = true ↔ b.IsAlive)
  /-- It can always be asked to stop. -/
  asked : b.awaited = none → ∃ b', b.Step .stops b'
  /-- If a request to stop need not wait, no loop is alive. -/
  stops : ∀ b', b.Step .stops b' → b'.awaited = none → ¬ b'.IsAlive
  /-- If it waits, no loop is alive when it returns. -/
  stopped : ∀ b', b.Step .stopped b' → ¬ b'.IsAlive
  /-- It does not wait for ever. -/
  returns : b.awaited ≠ none → ∀ c : Course, c.at' 0 = b → c.IsFair → ∃ n, c.happening n = .stopped
  /-- A loop that has been told to stop, by its token or by a request, begins no cycle; it finishes
  its unit of work, keeps its books, and ends. -/
  told : ∀ i l, b.loops[i]? = some l → b.isTold l = true →
    (∀ hs' b', b.History hs' b' → .loop i .ticks ∉ hs' ∧
      ClosesOnly b.template (exchangesOf i hs) (exchangesOf i hs')) ∧
    ∀ c : Course, c.at' 0 = b → c.IsFair → ∃ n l', (c.at' n).loops[i]? = some l' ∧ ¬ l'.IsAlive
  /-- From the end of a loop until one is started it does nothing. -/
  rests : ¬ b.IsAlive → ∀ hs' b', b.History hs' b' → (∀ token, .starts token true ∉ hs') →
    b.Rests hs' b'
  /-- A loop that is started with a token that has not been cancelled begins a cycle at once. -/
  begins : ∀ token b', b.Step (.starts token true) b' → b.cancelled.contains token = false →
    b'.BeginsAtOnce b.loops.length

/-- A scheduler obeys, whatever happens where it works, however much time passes and whichever
tokens are cancelled. -/
theorem scheduler_obeys {b₀ : Background} (hb₀ : b₀.IsFresh) (h : b₀.History hs b) :
    b.Obeys hs := by
  have hb := h.keeps hb₀
  refine ⟨fun token answer b' hstep => ?_, fun answer b' hstep => ?_,
    fun hidle => ⟨_, .stops hidle⟩, fun b' hstep hreturns => ?_, fun b' hstep => ?_,
    fun hawaited c hc hfair => ?_, fun i l hl htold => ⟨?_, ?_⟩, ?_, ?_⟩
  · cases hstep with
    | starts _ hidle => exact hb.starts_iff hidle token
  · cases hstep with
    | asks hidle => exact hb.isRunning_iff hidle
  · have hb' := hb.step hstep
    cases hstep with
    | stops _ =>
      rintro ⟨l, hl, halive⟩
      obtain ⟨i, hi⟩ := List.mem_iff_getElem?.1 hl
      rcases hb'.alive i l hi halive with h | h
      · cases h
      · cases hreturns.symm.trans h
  · have hb' := hb.step hstep
    cases hstep with
    | stopped hawaited _ _ =>
      rintro ⟨l, hl, halive⟩
      obtain ⟨i, hi⟩ := List.mem_iff_getElem?.1 hl
      rcases hb'.alive i l hi halive with h | h
      · cases (hb.awaited _ hawaited).1.symm.trans h
      · cases h
  · subst hc
    exact Course.returns hfair hb hawaited
  · exact fun hs' b' h' => hb.closes hl htold h'
  · rintro c rfl hfair
    exact Course.ends_of_told hfair hb hl htold
  · exact fun hdead hs' b' h' hnot => hb.rests hdead h' hnot
  · exact fun token b' hstep hlive => hb.begins hlive hstep

/-- A scheduler at a site, of which no loop has been started. -/
def posted (s : Site) : Background where
  settings := ⟨true, 60⟩
  template := "evaluation"
  site := s
  timer := 0
  cancelled := []
  loops := []
  slot := none
  awaited := none

/-- A scheduler whose token is cancelled while a cycle of it has the lock. -/
theorem scheduler_obeys_cancelled :
    let b₀ := posted (.holding [.hourly 1000 "tone" ⟨3600, 0⟩] ⟨3700, 0⟩)
    let hs : List Happening := [.starts 7 true, .loop 0 .ticks,
      .loop 0 (.works .acquireLock (.ok true)), .cancels 7, .asks true]
    ∃ b, b₀.IsFresh ∧ b₀.History hs b ∧ b.Obeys hs ∧ b.site.commons.holder = some 0 ∧
      b.loops[0]?.any b.isTold = true := by
  intro b₀ hs
  have hfresh : b₀.IsFresh := ⟨rfl, rfl, rfl, rfl, rfl⟩
  have hstarts : b₀.History [.starts 7 true] (b₀.start 7) := .snoc .nil (.starts 7 rfl)
  have hticks := hstarts.snoc (.loop (i := 0) rfl
    (.ticks (BackgroundLoop.isIdle_of_nil rfl _) rfl (.begins _ _ _)))
  have hworks := hticks.snoc (.loop (i := 0) rfl
    (.works (k := 0) ⟨rfl, rfl⟩ (.call rfl (.sound (.inl ⟨rfl, rfl, rfl⟩))) nofun))
  have hhistory : b₀.History hs _ := (hworks.snoc (.cancels 7)).snoc (.asks rfl)
  exact ⟨_, hfresh, hhistory, scheduler_obeys hfresh hhistory, rfl, rfl⟩

end Background

end TraceWatch
