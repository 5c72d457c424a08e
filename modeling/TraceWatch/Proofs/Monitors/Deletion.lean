import TraceWatch.Proofs.Monitors.Admission
import TraceWatch.Proofs.Runs.WellFormed

/-!
# What a deletion takes away

A deletion reads the runs of its monitor before it takes the monitor out of the store, and deletes
their jobs afterwards. If nobody else changes the store meanwhile, the runs that it has read are
those that go with the monitor, so every job of a run that is gone is asked to be deleted, once, the
newest first (`Site.deletion_takes_runs_and_jobs`). Whether the workflow plane does so changes
nothing.
-/

namespace TraceWatch

open Program

/-! ## The runs of a monitor -/

/-- Runs in the order in which they were recorded, the newest first. -/
def NewestFirst (runs : List Run) : Prop := runs.Pairwise fun r r' => r'.createdAt ≤ r.createdAt

theorem newestFirst_trans (a b c : Run) (hab : decide (b.createdAt ≤ a.createdAt) = true)
    (hbc : decide (c.createdAt ≤ b.createdAt) = true) : decide (c.createdAt ≤ a.createdAt) = true :=
  decide_eq_true (Timestamp.le_trans (of_decide_eq_true hbc) (of_decide_eq_true hab))

theorem newestFirst_total (a b : Run) :
    (decide (b.createdAt ≤ a.createdAt) || decide (a.createdAt ≤ b.createdAt)) = true := by
  simpa using Timestamp.le_total b.createdAt a.createdAt

namespace Store

variable {s : Store}

/-- All the runs of a monitor are listed, each as often as it is stored. -/
theorem listRuns_perm (id : Uuid) :
    (s.listRuns id none).Perm (s.runs.filter (·.monitorId = id)) :=
  List.mergeSort_perm _ _

/-- The runs of a monitor are listed newest first. -/
theorem listRuns_newestFirst (id : Uuid) : NewestFirst (s.listRuns id none) := by
  have hsorted : (s.listRuns id none).Pairwise
      fun r r' => decide (r'.createdAt ≤ r.createdAt) = true :=
    List.pairwise_mergeSort newestFirst_trans newestFirst_total (s.runsOf id)
  exact hsorted.imp fun h => of_decide_eq_true h

/-- The store loses the monitor and its runs, and nothing else of it changes. -/
structure Loses (s : Store) (m : Monitor) (s' : Store) : Prop where
  monitors : ∀ m', m' ∈ s'.monitors ↔ m' ∈ s.monitors ∧ m' ≠ m
  runs : ∀ r, r ∈ s'.runs ↔ r ∈ s.runs ∧ r.monitorId ≠ m.id
  keptMonitors : s'.monitors.Sublist s.monitors
  keptRuns : s'.runs.Sublist s.runs

/-- In a consistent store only one monitor has the identifier that is deleted. -/
theorem IsConsistent.loses (h : s.IsConsistent) {m : Monitor} (hm : m ∈ s.monitors) :
    s.Loses m (s.deleteMonitor m.id) where
  monitors m' := by
    simp only [deleteMonitor, List.mem_filter, decide_eq_true_eq]
    refine and_congr_right fun hm' => not_congr ⟨fun hid => ?_, congrArg Monitor.id⟩
    exact List.inj_on_of_nodup_map h.ids hm' hm hid
  runs r := by simp [deleteMonitor]
  keptMonitors := List.filter_sublist
  keptRuns := List.filter_sublist

end Store

/-! ## The jobs -/

/-- A run and how the attempt to delete its job has gone. -/
structure Disposal where
  run : Run
  answer : Except PlaneError Unit

/-- The call of the workflow plane that a disposal is, in the name of an organization. -/
def Disposal.effect (org : String) (x : Disposal) : Exchange :=
  ⟨.plane (.delete (.run org x.run.jobName)), x.answer⟩

namespace Service

variable {org name : String} {moves : List Move}

/-- The jobs are deleted one by one, whatever the workflow plane answers. -/
theorem deleteJobs_plays : ∀ {runs : List Run} {moves : List Move},
    Plays (deleteJobs org runs) moves () → ∃ xs : List Disposal, xs.map Disposal.run = runs ∧
      effects moves = xs.map (Disposal.effect org) ∧ AllIdle moves
  | [], moves, h => by
    obtain ⟨rfl, -⟩ := h.of_done
    exact ⟨[], rfl, rfl, allIdle_nil⟩
  | r :: rest, moves, h => by
    rw [deleteJobs_cons] at h
    obtain ⟨answer, before, after, others, rfl, hidle, h⟩ := h.of_call
    obtain ⟨xs, hruns, heffects, hothers⟩ := deleteJobs_plays h
    refine ⟨⟨r, answer⟩ :: xs, congrArg _ hruns, ?_, allIdle_cons.2 ⟨hidle, hothers⟩⟩
    exact congrArg (List.cons (Disposal.effect org ⟨r, answer⟩)) heffects

theorem deleteJobs_returns : ∀ runs : List Run, (deleteJobs org runs).Returns
  | [] => trivial
  | r :: rest => by
    rw [deleteJobs_cons]
    exact fun _ => deleteJobs_returns rest

/-- A deletion comes to an end, whatever it is answered. -/
theorem delete_returns (org name : String) : (delete org name).run.Returns := by
  rw [delete_run]
  intro found
  rcases found with _ | _ | m
  · trivial
  · trivial
  · intro listed
    cases listed with
    | error => trivial
    | ok runs =>
      intro deleted
      cases deleted with
      | error => trivial
      | ok =>
        refine Returns.bind (fun _ => ?_) (deleteJobs_returns runs)
        trivial

/-- A deletion that nobody disturbs either finds no monitor of the name, or takes the one that it
finds out of the store and then tries to delete the jobs of the runs that were there. -/
theorem delete_plays {s s' : Store} {result : Except MonitorError Unit}
    (h : Plays (delete org name).run moves result) (hrow : Chained s moves s') :
    (s.findByName org name = none ∧ result = .error (.monitorNotFound org name) ∧ s' = s ∧
      effects moves = []) ∨
    ∃ m, s.findByName org name = some m ∧ result = .ok () ∧ s' = s.deleteMonitor m.id ∧
      ∃ xs : List Disposal, xs.map Disposal.run = s.listRuns m.id none ∧
        effects moves = ⟨.store (.deleteMonitor m.id), .ok ()⟩ :: xs.map (Disposal.effect org) := by
  rw [delete_run] at h
  obtain ⟨now, rest, rfl, h, hrow⟩ := h.of_store_row hrow
  simp only [StoreCall.perform] at h hrow
  cases hfound : s.findByName org name with
  | none =>
    rw [hfound] at h
    obtain ⟨rfl, rfl⟩ := h.of_done
    exact .inl ⟨rfl, rfl, hrow, rfl⟩
  | some m =>
    rw [hfound] at h
    obtain ⟨now, rest, rfl, h, hrow⟩ := h.of_store_row hrow
    obtain ⟨now, rest, rfl, h, hrow⟩ := h.of_store_row hrow
    obtain ⟨first, last, jobs, rfl, hjobs, h⟩ := h.of_bind
    obtain ⟨rfl, rfl⟩ := h.of_done
    obtain ⟨xs, hruns, heffects, hidle⟩ := deleteJobs_plays hjobs
    rw [List.append_nil] at hrow ⊢
    refine .inr ⟨m, rfl, rfl, hrow.eq_of_allIdle hidle, xs, hruns, ?_⟩
    exact congrArg (List.cons ⟨.store (.deleteMonitor m.id), .ok ()⟩) heffects

/-- A deletion in a row is undisturbed: it creates no monitor, so no identifier can clash. -/
theorem delete_undisturbed {s s' : Store} {result : Except MonitorError Unit}
    (h : Plays (delete org name).run moves result) (hrow : Chained s moves s') :
    (Activity.delete org name).Undisturbed s moves s' result := by
  refine ⟨h, hrow, fun move hmove d hcall => ?_⟩
  obtain ⟨c, answer, before, after⟩ := move
  obtain rfl : c = .store (.createMonitor d) := hcall
  have hcreates : ⟨.store (.createMonitor d), answer⟩ ∈ effects moves :=
    List.mem_filterMap.2 ⟨_, hmove, rfl⟩
  rcases delete_plays h hrow with ⟨-, -, -, heffects⟩ | ⟨m, -, -, -, xs, -, heffects⟩
  · simp [heffects] at hcreates
  · simp [heffects, Disposal.effect] at hcreates

end Service

/-! ## The statement -/

namespace Site

variable {s : Site}

/-- At every reachable site a deletion comes to an end. If nobody else changes the store meanwhile,
and a monitor of the name is there, it succeeds: the store loses the monitor and its runs, and
after that the workflow plane is asked to delete the job of each of these runs in the name of the
organization, the newest first, whatever it answers. Without such a monitor the deletion fails,
changes nothing and asks for nothing. -/
theorem deletion_takes_runs_and_jobs (hs : s.Reachable) (org name : String) :
    (Service.delete org name).run.Returns ∧
    ∀ {moves : List Move} {σ : Store} {result : Except MonitorError Unit},
      (Activity.delete org name).Undisturbed s.commons.store moves σ result →
        (∀ m ∈ s.commons.store.monitors, m.org = org → m.name = name →
          result = .ok () ∧ s.commons.store.Loses m σ ∧
          ∃ xs : List Disposal,
            (xs.map Disposal.run).Perm (s.commons.store.runs.filter (·.monitorId = m.id)) ∧
            NewestFirst (xs.map Disposal.run) ∧
            effects moves =
              ⟨.store (.deleteMonitor m.id), .ok ()⟩ :: xs.map (Disposal.effect m.org)) ∧
        ((∀ m ∈ s.commons.store.monitors, m.org = org → m.name ≠ name) →
          result = .error (.monitorNotFound org name) ∧ σ = s.commons.store ∧
            effects moves = []) := by
  refine ⟨Service.delete_returns org name, fun {moves σ result} h => ?_⟩
  have hconsistent := hs.isProper.toIsConsistent
  rcases Service.delete_plays h.plays h.row with
    ⟨hnone, hresult, hsame, heffects⟩ | ⟨m, hfound, hresult, rfl, xs, hruns, heffects⟩
  · refine ⟨fun m hm horg hname => ?_, fun _ => ⟨hresult, hsame, heffects⟩⟩
    exact absurd hname (Store.name_ne_of_findByName hnone hm horg)
  · have hm := List.mem_of_find?_eq_some hfound
    obtain ⟨horg, hname⟩ := Store.named_of_findByName hfound
    refine ⟨fun m' hm' horg' hname' => ?_, fun hnone => absurd hname (hnone m hm horg)⟩
    obtain rfl : m' = m :=
      hconsistent.eq_of_name hm' hm (horg'.trans horg.symm) (hname'.trans hname.symm)
    subst horg
    refine ⟨hresult, hconsistent.loses hm, xs, ?_, ?_, heffects⟩
    · exact hruns ▸ Store.listRuns_perm m'.id
    · exact hruns ▸ Store.listRuns_newestFirst m'.id

/-- Two past monitors of an organization, with a run each, and a second run of the first. -/
def threeRuns : List Turn :=
  Turn.alone (.create "evaluation" "acme" (.tone "tone" (some ⟨⟨0, 0⟩, ⟨3600, 0⟩⟩))) 0 11 ++
    Turn.alone (.create "evaluation" "acme" (.tone "care" (some ⟨⟨0, 0⟩, ⟨3600, 0⟩⟩))) 1 11 ++
    .clock ⟨9000, 0⟩ ::
      Turn.alone (.rerun "evaluation" "acme" "tone" (Surroundings.accepting.id 1)) 2 7

/-- Of the deletion of a monitor with two runs beside another with one, by a workflow plane that
deletes no job. -/
theorem deletion_takes_runs_and_jobs_threeRuns :
    let s := ((holding [] ⟨7200, 0⟩).after .accepting threeRuns).2
    s.Reachable ∧ ∃ m ∈ s.commons.store.monitors, m.org = "acme" ∧ m.name = "tone" ∧
      (s.commons.store.runs.filter (·.monitorId = m.id)).length = 2 ∧
      s.commons.store.runs.length = 3 ∧
      ∃ moves σ, (Activity.delete "acme" "tone").Undisturbed s.commons.store moves σ (.ok ()) ∧
        (∀ call ∈ planeMoves moves, call.2 = .error Surroundings.rejection) ∧
        s.commons.store.Loses m σ ∧
        ∃ xs : List Disposal,
          (xs.map Disposal.run).Perm (s.commons.store.runs.filter (·.monitorId = m.id)) ∧
          NewestFirst (xs.map Disposal.run) ∧
          effects moves =
            ⟨.store (.deleteMonitor m.id), .ok ()⟩ :: xs.map (Disposal.effect m.org) := by
  intro s
  have hs : s.Reachable := reachable_after (by decide +kernel)
  obtain ⟨m, hm, horg, hname, htwo, hthree⟩ : ∃ m ∈ s.commons.store.monitors,
      m.org = "acme" ∧ m.name = "tone" ∧
      (s.commons.store.runs.filter (·.monitorId = m.id)).length = 2 ∧
      s.commons.store.runs.length = 3 := by decide +kernel
  obtain ⟨hreturns, hdeletes⟩ := deletion_takes_runs_and_jobs hs "acme" "tone"
  obtain ⟨moves, result, σ, hplays, hrow, hcalls⟩ :=
    hreturns.exists_plays (fun _ => .error Surroundings.rejection) s.commons.store
  have hundisturbed := Service.delete_undisturbed hplays hrow
  obtain ⟨rfl, hloses, hjobs⟩ := (hdeletes hundisturbed).1 m hm horg hname
  exact ⟨hs, m, hm, horg, hname, htwo, hthree, moves, σ, hundisturbed, hcalls, hloses, hjobs⟩

end Site

end TraceWatch
