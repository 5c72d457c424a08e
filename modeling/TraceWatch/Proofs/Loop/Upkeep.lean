import TraceWatch.Proofs.Loop.Background
import TraceWatch.Proofs.Loop.Heeding

/-!
# Where a scheduler keeps what it does

What a scheduler does is kept in several places: in its slot, in the request that waits for a loop
to end, and in the loops with the tasks that are their cycles. `Background.Keeps` says how they
agree: a loop that is alive is in the slot or being waited for, so there is one at most; and a cycle
is the latest of a loop that is alive, and on its way as a heeding program is, or it is over and
does not have the lock. Every history keeps this.
-/

namespace TraceWatch

/-! ## The turn of a loop -/

namespace LoopTask

variable {task task' : LoopTask} {told : Bool} {period now : Nat}

theorem turn_eq_ticks : task.turn told period now = .ticks task' ↔
    task.ended = false ∧ told = false ∧ task.due ≤ now ∧ task' = task.tick period now := by
  unfold turn
  cases task.ended with
  | true => simp
  | false =>
    cases told with
    | true => simp
    | false =>
      by_cases hdue : now < task.due
      · simp [hdue, Nat.not_le.2 hdue]
      · simp [hdue, Nat.le_of_not_lt hdue, eq_comm]

theorem turn_eq_ends : task.turn told period now = .ends ↔ task.ended = false ∧ told = true := by
  unfold turn
  cases task.ended <;> cases told <;> simp
  split <;> simp

end LoopTask

/-! ## The loops in the order of their start -/

namespace Happening

/-- What a call of a loop has been answered, if that is what happens. -/
def exchange? (i : Nat) : Happening → Option Exchange
  | loop j (.works c answer) => if j = i then some ⟨c, answer⟩ else none
  | _ => none

/-- What happens is a move of a loop. -/
def IsMoveOf (i : Nat) (h : Happening) : Prop := ∃ move, h = loop i move

theorem exchange?_of_not_isMoveOf {i : Nat} {h : Happening} (hnot : ¬ h.IsMoveOf i) :
    h.exchange? i = none := by
  unfold exchange?
  split
  · next j c answer =>
    refine if_neg fun heq => hnot ⟨.works c answer, ?_⟩
    rw [heq]
  · rfl

end Happening

/-- What the calls of a loop have been answered, the latest last. -/
def exchangesOf (i : Nat) (hs : List Happening) : List Exchange :=
  hs.filterMap (Happening.exchange? i)

theorem exchangesOf_concat (i : Nat) (hs : List Happening) (h : Happening) :
    exchangesOf i (hs ++ [h]) = exchangesOf i hs ++ (h.exchange? i).toList := by
  rw [exchangesOf, List.filterMap_append]
  cases hx : h.exchange? i <;> simp [hx, exchangesOf]

theorem exchangesOf_concat_of_none {i : Nat} {hs : List Happening} {h : Happening}
    (hnot : h.exchange? i = none) : exchangesOf i (hs ++ [h]) = exchangesOf i hs := by
  rw [exchangesOf_concat, hnot, Option.toList_none, List.append_nil]

/-- A task is over and does not have the lock. -/
def Site.Settled (s : Site) (k : Nat) : Prop :=
  ∃ task, s.tasks[k]? = some task ∧ task.IsOver ∧ s.commons.holder ≠ some k

/-- A task that is over stays so, and does not get the lock. -/
theorem Site.Settled.step {s s' : Site} {e : Event} {k : Nat} (h : s.Settled k)
    (hstep : s.RoughStep e s') : s'.Settled k := by
  obtain ⟨task, htask, hover, hheld⟩ := h
  by_cases he : e.actor = some k
  · cases hstep with
    | tick | begins => cases he
    | call hold =>
      cases he
      cases hold.symm.trans htask
      rcases hover with hover | ⟨_, hover⟩ <;> cases hover
    | drops hold =>
      cases he
      exact ⟨task, htask, hover, fun hk => (Commons.holder_freeLock.1 hk).2 rfl⟩
  · obtain ⟨htask', hholder⟩ := hstep.frame he htask
    exact ⟨task, htask', hover, mt hholder.1 hheld⟩

theorem BackgroundLoop.IsAt.tell {l : BackgroundLoop} {k : Nat} (h : l.IsAt k) : l.tell.IsAt k :=
  ⟨h.alive, h.head⟩

namespace Background

variable {b b' : Background} {hs : List Happening} {h : Happening} {i j k : Nat}
  {l l' : BackgroundLoop} {move : LoopMove} {s : Site}

/-- The task is the latest cycle of a loop that is alive, and on its way after what the calls of the
loop have been answered. -/
structure Attends (s : Site) (template : String) (log : List Exchange) (l : BackgroundLoop)
    (k : Nat) : Prop where
  at' : l.IsAt k
  task : ∃ rest, s.tasks[k]? = some ⟨.cycle template, rest⟩ ∧ rest.Underway template log

/-- The places where a scheduler keeps what it does agree. -/
structure Keeps (b : Background) (hs : List Happening) : Prop where
  order : ∃ es, b.site.KeepsOrder es
  slot : ∀ i, b.slot = some i → i < b.loops.length
  awaited : ∀ i, b.awaited = some i →
    b.slot = none ∧ ∃ l, b.loops[i]? = some l ∧ l.told = true
  alive : ∀ i l, b.loops[i]? = some l → l.IsAlive → b.slot = some i ∨ b.awaited = some i
  cycles : ∀ i l, b.loops[i]? = some l → ∀ k ∈ l.cycles,
    Attends b.site b.template (exchangesOf i hs) l k ∨ b.site.Settled k

/-! ## What a move of a loop changes -/

namespace Moves

theorem alive (h : b.Moves l move s l') : l.IsAlive := by
  cases h with
  | ticks _ hturn => exact (LoopTask.turn_eq_ticks.1 hturn).1
  | works hat | breaks hat => exact hat.alive
  | ends _ hturn => exact (LoopTask.turn_eq_ends.1 hturn).1

theorem told_eq (h : b.Moves l move s l') : l'.told = l.told := by
  cases h <;> rfl

theorem token_eq (h : b.Moves l move s l') : l'.task.token = l.task.token := by
  cases h with
  | ticks _ hturn =>
    obtain ⟨-, -, -, rfl⟩ := LoopTask.turn_eq_ticks.1 hturn
    rfl
  | works | breaks | ends => rfl

/-- What a move does at the site, if it does anything. -/
theorem site (h : b.Moves l move s l') : s = b.site ∨ ∃ e, b.site.RoughStep e s := by
  cases h with
  | ticks _ _ hstep | works _ hstep | breaks _ hstep => exact .inr ⟨_, hstep⟩
  | ends => exact .inl rfl

/-- What is settled stays so. -/
theorem settled (h : b.Moves l move s l') (hk : b.site.Settled k) : s.Settled k := by
  rcases h.site with rfl | ⟨e, hstep⟩
  · exact hk
  · exact hk.step hstep

end Moves

namespace Keeps

/-- One loop is alive at most. -/
theorem single (hb : b.Keeps hs) (hl : b.loops[i]? = some l) (halive : l.IsAlive)
    (hl' : b.loops[j]? = some l') (halive' : l'.IsAlive) : i = j := by
  rcases hb.alive i l hl halive with hi | hi <;> rcases hb.alive j l' hl' halive' with hj | hj
  · exact Option.some.inj (hi.symm.trans hj)
  · cases (hb.awaited j hj).1.symm.trans hi
  · cases (hb.awaited i hi).1.symm.trans hj
  · exact Option.some.inj (hi.symm.trans hj)

/-- A loop that has ended has no cycle that has the lock. -/
theorem not_held (hb : b.Keeps hs) (hdead : ¬ b.IsAlive) (hk : b.Owns k) :
    b.site.commons.holder ≠ some k := by
  obtain ⟨l, hl, hk⟩ := hk
  obtain ⟨i, hi⟩ := List.mem_iff_getElem?.1 hl
  rcases hb.cycles i l hi k hk with hat | ⟨-, -, -, hheld⟩
  · exact absurd ⟨l, hl, hat.at'.alive⟩ hdead
  · exact hheld

/-- While no request waits, the slot tells whether a loop is alive. -/
theorem isRunning_iff (hb : b.Keeps hs) (hidle : b.awaited = none) :
    b.view.isRunning = true ↔ b.IsAlive := by
  have hslot : ∀ i l, b.loops[i]? = some l → l.IsAlive → b.slot = some i := fun i l hl halive =>
    (hb.alive i l hl halive).resolve_right fun h => by cases hidle.symm.trans h
  constructor
  · intro hrun
    unfold view at hrun
    cases hi : b.slot with
    | none => simp [hi, LoopSlot.isRunning] at hrun
    | some i =>
      have hl := List.getElem?_eq_getElem (hb.slot i hi)
      refine ⟨_, List.getElem_mem (hb.slot i hi), ?_⟩
      simpa [hi, hl, LoopSlot.isRunning, BackgroundLoop.IsAlive] using hrun
  · rintro ⟨l, hl, halive⟩
    obtain ⟨i, hi⟩ := List.mem_iff_getElem?.1 hl
    have hended : l.task.ended = false := halive
    simp [view, hslot i l hi halive, hi, LoopSlot.isRunning, hended]

theorem starts_iff (hb : b.Keeps hs) (hidle : b.awaited = none) (token : Nat) :
    b.starts token = true ↔ b.settings.enabled = true ∧ ¬ b.IsAlive := by
  rw [← hb.isRunning_iff hidle, starts, LoopSlot.start]
  cases b.settings.enabled <;> cases b.view.isRunning <;> simp

end Keeps

/-- A request to start a loop that is granted puts a new one in the slot; another one changes
nothing. -/
theorem start_eq (b : Background) (token : Nat) : b.start token = if b.starts token then
    { b with
      loops := b.loops ++ [⟨.new token b.timer, false, []⟩]
      slot := some b.loops.length }
    else b := by
  unfold start starts LoopSlot.start
  cases !b.settings.enabled || b.view.isRunning <;> simp

/-- What is settled stays so, whatever happens. -/
theorem settled_step (hstep : b.Step h b') (hk : b.site.Settled k) : b'.site.Settled k := by
  cases hstep with
  | elsewhere _ hstep => exact hk.step hstep
  | starts =>
    rw [start_eq]
    split <;> exact hk
  | loop _ hmove => exact hmove.settled hk
  | passes | cancels | asks | stops | stopped => exact hk

/-! ## What a step preserves -/

/-- A request to stop tells the loop in the slot, and no other. -/
theorem stop_loops (b : Background) (i : Nat) :
    b.stop.loops[i]? = b.loops[i]?.map fun l => if b.slot = some i then l.tell else l := by
  unfold stop
  cases hslot : b.slot with
  | none => simp
  | some j =>
    rw [List.getElem?_modify]
    by_cases hij : j = i <;> simp [hij]

/-- What a loop attends to is not changed by what others do at the site. -/
theorem Attends.frame {s s' : Site} {template : String} {log : List Exchange} {e : Event}
    (h : Attends s template log l k) (hstep : s.RoughStep e s') (he : e.actor ≠ some k) :
    Attends s' template log l k := by
  obtain ⟨rest, htask, hrest⟩ := h.task
  exact ⟨h.at', rest, (hstep.frame he htask).1, hrest⟩

namespace Keeps

/-- A scheduler of which no loop has been started keeps what it does. -/
theorem fresh (hb : b.IsFresh) : b.Keeps [] := by
  obtain ⟨hloops, hslot, hawaited, hsite⟩ := hb
  refine ⟨⟨[], .start hsite⟩, ?_, ?_, ?_, ?_⟩
  · simp [hslot]
  · simp [hawaited]
  · simp [hloops]
  · simp [hloops]

/-- It is not concerned by what is not a call of a loop. -/
theorem concat (hb : b.Keeps hs) (hnot : ∀ i, h.exchange? i = none) : b.Keeps (hs ++ [h]) := by
  refine ⟨hb.order, hb.slot, hb.awaited, hb.alive, fun i l hl k hk => ?_⟩
  rw [exchangesOf_concat_of_none (hnot i)]
  exact hb.cycles i l hl k hk

theorem elsewhere (hb : b.Keeps hs) {e : Event} (he : ∀ k, e.actor = some k → ¬ b.Owns k)
    (hstep : b.site.RoughStep e s) : Keeps { b with site := s } hs := by
  obtain ⟨es, horder⟩ := hb.order
  refine ⟨⟨_, horder.step hstep⟩, hb.slot, hb.awaited, hb.alive, fun i l hl k hk => ?_⟩
  have howns : b.Owns k := ⟨l, List.mem_of_getElem? hl, hk⟩
  rcases hb.cycles i l hl k hk with hat | hsettled
  · exact .inl (hat.frame hstep fun heq => he k heq howns)
  · exact .inr (hsettled.step hstep)

theorem start (hb : b.Keeps hs) (hidle : b.awaited = none) (token : Nat) :
    (b.start token).Keeps hs := by
  rw [start_eq]
  split
  · next hstarts =>
    have hdead := ((hb.starts_iff hidle token).1 hstarts).2
    refine ⟨hb.order, ?_, ?_, ?_, ?_⟩
    · rintro i ⟨⟩
      simp
    · intro i hi
      cases hidle.symm.trans hi
    · intro i l hl halive
      rcases of_getElem?_concat hl with hl | ⟨rfl, -⟩
      · exact absurd ⟨l, List.mem_of_getElem? hl, halive⟩ hdead
      · exact .inl rfl
    · intro i l hl k hk
      rcases of_getElem?_concat hl with hl | ⟨-, rfl⟩
      · exact hb.cycles i l hl k hk
      · cases hk
  · exact hb

theorem stop (hb : b.Keeps hs) (hidle : b.awaited = none) : b.stop.Keeps hs := by
  refine ⟨hb.order, nofun, fun i hi => ?_, fun i l hl halive => ?_, fun i l hl k hk => ?_⟩
  · have hslot : b.slot = some i := hi
    obtain ⟨l, hl⟩ : ∃ l, b.loops[i]? = some l := ⟨_, List.getElem?_eq_getElem (hb.slot i hi)⟩
    refine ⟨rfl, l.tell, ?_, rfl⟩
    rw [stop_loops, hl, Option.map_some, if_pos hslot]
  · rw [stop_loops] at hl
    obtain ⟨l₀, hl₀, rfl⟩ := Option.map_eq_some_iff.1 hl
    refine .inr ((hb.alive i l₀ hl₀ ?_).resolve_right fun h => by cases hidle.symm.trans h)
    split at halive <;> exact halive
  · rw [stop_loops] at hl
    obtain ⟨l₀, hl₀, rfl⟩ := Option.map_eq_some_iff.1 hl
    split at hk
    · refine (hb.cycles i l₀ hl₀ k hk).imp_left fun hat => ?_
      rw [if_pos ‹_›]
      exact ⟨hat.at'.tell, hat.task⟩
    · rw [if_neg ‹_›]
      exact hb.cycles i l₀ hl₀ k hk

/-- A cycle of an idle loop is settled. -/
theorem settled_of_isIdle (hb : b.Keeps hs) (hl : b.loops[i]? = some l) (hidle : l.IsIdle b.site)
    (hk : k ∈ l.cycles) : b.site.Settled k := by
  rcases hb.cycles i l hl k hk with hat | hsettled
  · obtain ⟨task, result, htask, hdone⟩ := hidle k hat.at'.head
    obtain ⟨es, horder⟩ := hb.order
    exact ⟨task, htask, .inr ⟨result, hdone⟩, (horder.stance k task htask).not_held hdone⟩
  · exact hsettled

/-- After a move of a loop its cycles are attended to or settled. -/
theorem cycles_of_moves (hb : b.Keeps hs) (hl : b.loops[i]? = some l)
    (hmove : b.Moves l move s l') (hk : k ∈ l'.cycles) :
    Attends s b.template (exchangesOf i (hs ++ [.loop i move])) l' k ∨ s.Settled k := by
  have hsettled (hk : b.site.Settled k) : s.Settled k := hmove.settled hk
  have halive := hmove.alive
  rw [exchangesOf_concat]
  cases hmove with
  | ticks hidle hturn hstep =>
    obtain ⟨-, -, -, rfl⟩ := LoopTask.turn_eq_ticks.1 hturn
    rcases List.mem_cons.1 hk with rfl | hk
    · obtain rfl := hstep.of_begins
      exact .inl ⟨⟨halive, rfl⟩, _, List.getElem?_concat_length,
        .between (Service.cycle_heeding b.template)⟩
    · exact .inr (hsettled (hb.settled_of_isIdle hl hidle hk))
  | @works _ k' c answer hat hstep _ =>
    rcases hb.cycles i l hl k hk with hat' | hk
    · obtain rfl : k' = k := Option.some.inj (hat.head.symm.trans hat'.at'.head)
      obtain ⟨rest, htask, hrest⟩ := hat'.task
      obtain ⟨next, hold, hnew⟩ := hstep.of_call
      cases hold.symm.trans htask
      refine .inl ⟨hat, _, hnew, ?_⟩
      rw [Happening.exchange?, if_pos rfl]
      exact hrest.answered answer
    · exact .inr (hsettled hk)
  | @breaks _ k' hat hstep =>
    rcases hb.cycles i l hl k hk with hat' | hk
    · obtain rfl : k' = k := Option.some.inj (hat.head.symm.trans hat'.at'.head)
      obtain ⟨⟨a, hold⟩, rfl⟩ := hstep.of_drops
      exact .inr ⟨_, hold, .inl rfl, fun heq => (Commons.holder_freeLock.1 heq).2 rfl⟩
    · exact .inr (hsettled hk)
  | ends hidle _ => exact .inr (hsettled (hb.settled_of_isIdle hl hidle hk))

theorem loop (hb : b.Keeps hs) (hl : b.loops[i]? = some l) (hmove : b.Moves l move s l') :
    Keeps { b with site := s, loops := b.loops.set i l' } (hs ++ [.loop i move]) := by
  have hlt := (List.getElem?_eq_some_iff.1 hl).1
  have hself : (b.loops.set i l')[i]? = some l' := List.getElem?_set_self hlt
  refine ⟨?_, fun j hj => ?_, fun j hj => ?_, fun j l₁ hl₁ halive => ?_, fun j l₁ hl₁ k hk => ?_⟩
  · obtain ⟨es, horder⟩ := hb.order
    rcases hmove.site with rfl | ⟨e, hstep⟩
    · exact ⟨es, horder⟩
    · exact ⟨_, horder.step hstep⟩
  · rw [List.length_set]
    exact hb.slot j hj
  · obtain ⟨hslot, l₁, hl₁, htold⟩ := hb.awaited j hj
    refine ⟨hslot, ?_⟩
    by_cases hij : i = j
    · subst hij
      cases hl.symm.trans hl₁
      exact ⟨l', hself, hmove.told_eq.trans htold⟩
    · exact ⟨l₁, (List.getElem?_set_ne hij).trans hl₁, htold⟩
  · by_cases hij : i = j
    · subst hij
      exact hb.alive i l hl hmove.alive
    · exact hb.alive j l₁ ((List.getElem?_set_ne hij).symm.trans hl₁) halive
  · by_cases hij : i = j
    · subst hij
      cases hself.symm.trans hl₁
      exact hb.cycles_of_moves hl hmove hk
    · -- only one loop is alive, so the cycles of the others are settled
      have hl₁' := (List.getElem?_set_ne hij).symm.trans hl₁
      refine .inr (hmove.settled ((hb.cycles j l₁ hl₁' k hk).resolve_left fun hat => hij ?_))
      exact hb.single hl hmove.alive hl₁' hat.at'.alive

/-- Whatever happens, it keeps what it does. -/
theorem step (hb : b.Keeps hs) (hstep : b.Step h b') : b'.Keeps (hs ++ [h]) := by
  cases hstep with
  | elsewhere he hstep => exact (hb.elsewhere he hstep).concat fun _ => rfl
  | passes | cancels =>
    refine concat ?_ fun _ => rfl
    exact ⟨hb.order, hb.slot, hb.awaited, hb.alive, hb.cycles⟩
  | starts token hidle => exact (hb.start hidle token).concat fun _ => rfl
  | asks => exact hb.concat fun _ => rfl
  | stops hidle => exact (hb.stop hidle).concat fun _ => rfl
  | @stopped i l hawaited hl hended =>
    refine concat ?_ fun _ => rfl
    refine ⟨hb.order, hb.slot, nofun, fun j l' hl' halive => ?_, hb.cycles⟩
    refine .inl ((hb.alive j l' hl' halive).resolve_right fun hj => hended ?_)
    cases hawaited.symm.trans hj
    cases hl.symm.trans hl'
    exact halive
  | loop hl hmove => exact hb.loop hl hmove

end Keeps

/-- Every history of a scheduler of which no loop has been started keeps what it does. -/
theorem History.keeps {b₀ : Background} (h : b₀.History hs b) (hb₀ : b₀.IsFresh) : b.Keeps hs := by
  induction h with
  | nil => exact .fresh hb₀
  | snoc _ hstep ih => exact ih.step hstep

end Background

end TraceWatch
