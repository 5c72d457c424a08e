import TraceWatch.Proofs.Monitors.Deletion
import TraceWatch.Proofs.Runs.Reading

/-!
# The latest run and the history of runs

Both are taken from the runs of a monitor by the instants of their creation. Of several runs that
were created at the latest of these instants, the one that is yielded last counts as the latest
(`Store.latestRun_eq`), but the history starts with the one that is yielded first
(`Store.head?_listRuns`). So the two agree, in whatever order the store yields its runs, just where
only one run was created then (`Store.latestRun_heads_history_iff`).
-/

namespace TraceWatch

/-! ## The newest of runs -/

/-- Whether none of the runs was created after a run. -/
def isNewestAmong (rs : List Run) (r : Run) : Bool := rs.all fun r' => r'.createdAt ≤ r.createdAt

/-- The runs that none of them was created after, in the order in which they come. -/
def newestOf (rs : List Run) : List Run := rs.filter (isNewestAmong rs)

section

variable {rs : List Run} {r : Run}

theorem isNewestAmong_iff :
    isNewestAmong rs r = true ↔ ∀ r' ∈ rs, r'.createdAt ≤ r.createdAt := by simp [isNewestAmong]

theorem mem_newestOf : r ∈ newestOf rs ↔ r ∈ rs ∧ ∀ r' ∈ rs, r'.createdAt ≤ r.createdAt := by
  rw [newestOf, List.mem_filter, isNewestAmong_iff]

/-- Of any runs one is the newest. -/
theorem exists_mem_newestOf : ∀ {rs : List Run}, rs ≠ [] → ∃ r, r ∈ newestOf rs
  | [r], _ => ⟨r, mem_newestOf.2 ⟨.head _, by simp [Timestamp.le_refl]⟩⟩
  | r :: r' :: rs, _ => by
    obtain ⟨best, hbest⟩ := exists_mem_newestOf (List.cons_ne_nil r' rs)
    obtain ⟨hmem, hle⟩ := mem_newestOf.1 hbest
    rcases Timestamp.le_total r.createdAt best.createdAt with h | h
    · exact ⟨best, mem_newestOf.2 ⟨.tail r hmem, List.forall_mem_cons.2 ⟨h, hle⟩⟩⟩
    · refine ⟨r, mem_newestOf.2 ⟨.head _, List.forall_mem_cons.2 ⟨Timestamp.le_refl _, ?_⟩⟩⟩
      exact fun r'' hr'' => Timestamp.le_trans (hle r'' hr'') h

theorem newestOf_eq_nil : newestOf rs = [] ↔ rs = [] := by
  refine ⟨fun h => ?_, fun h => by rw [h]; rfl⟩
  by_contra hne
  obtain ⟨r, hr⟩ := exists_mem_newestOf hne
  rw [h] at hr
  cases hr

/-- A run that comes after others is the last of the newest, unless one of them was created after
it. -/
theorem getLast?_newestOf_concat (h : ∀ r' ∈ rs, r'.createdAt ≤ r.createdAt) :
    (newestOf (rs ++ [r])).getLast? = some r := by
  have hr : isNewestAmong (rs ++ [r]) r = true := by
    simpa [isNewestAmong, Timestamp.le_refl] using h
  rw [newestOf, List.filter_append, List.filter_cons_of_pos hr, List.filter_nil,
    List.getLast?_concat]

theorem newestOf_concat {best : Run} (hbest : best ∈ rs) (h : ¬ best.createdAt ≤ r.createdAt) :
    newestOf (rs ++ [r]) = newestOf rs := by
  have hr : ¬ isNewestAmong (rs ++ [r]) r = true := fun hle =>
    h (isNewestAmong_iff.1 hle best (List.mem_append_left _ hbest))
  rw [newestOf, List.filter_append, List.filter_cons_of_neg hr, List.filter_nil, List.append_nil]
  refine List.filter_congr fun r' _ => ?_
  rw [Bool.eq_iff_iff, isNewestAmong_iff, isNewestAmong_iff]
  refine ⟨fun hle r'' hr'' => hle r'' (List.mem_append_left _ hr''), fun hle => ?_⟩
  have hlater := (Timestamp.le_total best.createdAt r.createdAt).resolve_left h
  intro r'' hr''
  rcases List.mem_append.1 hr'' with hr'' | hr''
  · exact hle r'' hr''
  · rw [List.mem_singleton.1 hr'']
    exact Timestamp.le_trans hlater (hle best hbest)

/-- The latest of runs is the last of the newest. -/
theorem foldl_newer (rs : List Run) : rs.foldl Store.newer none = (newestOf rs).getLast? := by
  induction rs using List.reverseRecOn with
  | nil => rfl
  | append_singleton rs r ih =>
    rw [List.foldl_append, ih, List.foldl_cons, List.foldl_nil]
    unfold Store.newer
    split
    · next hnone =>
      obtain rfl := newestOf_eq_nil.1 (List.getLast?_eq_none_iff.1 hnone)
      exact (getLast?_newestOf_concat fun _ hr' => absurd hr' List.not_mem_nil).symm
    · next best hlast =>
      obtain ⟨hbest, hle⟩ := mem_newestOf.1 (List.mem_of_getLast? hlast)
      split
      · next h =>
        exact (getLast?_newestOf_concat fun r' hr' => Timestamp.le_trans (hle r' hr') h).symm
      · next h => rw [newestOf_concat hbest h, hlast]

/-- A row without repetitions has the same first and last entry just where it has only one. -/
theorem head?_eq_getLast?_iff {α : Type} {row : List α} (h : row.Nodup) :
    row.head? = row.getLast? ↔ ∀ a ∈ row, ∀ b ∈ row, a = b := by
  match row with
  | [] => simp
  | [a] => simp
  | a :: b :: row =>
    have hlast : (a :: b :: row).getLast? = some ((b :: row).getLast (List.cons_ne_nil b row)) :=
      (List.getLast?_cons_cons ..).trans (List.getLast?_eq_some_getLast _)
    have hne : a ≠ (b :: row).getLast (List.cons_ne_nil b row) := fun heq =>
      (List.nodup_cons.1 h).1 (heq ▸ List.getLast_mem _)
    rw [hlast, List.head?_cons, Option.some.injEq]
    refine iff_of_false hne fun hall => ?_
    exact hne (hall _ (.head _) _ (.tail _ (List.getLast_mem _)))

end

namespace Store

variable {s : Store} {id : Uuid}

/-! ## Both reads -/

/-- Of the newest runs of a monitor, the last one that the store yields counts as the latest. -/
theorem latestRun_eq : s.latestRun id = (newestOf (s.runsOf id)).getLast? := foldl_newer _

/-- The newest runs are listed in the order in which the store yields them. -/
theorem newestOf_sublist_listRuns : (newestOf (s.runsOf id)).Sublist (s.listRuns id none) := by
  refine List.sublist_mergeSort newestFirst_trans newestFirst_total ?_ List.filter_sublist
  refine List.pairwise_of_forall_mem_list fun r hr r' hr' => decide_eq_true ?_
  exact (mem_newestOf.1 hr).2 r' (mem_newestOf.1 hr').1

/-- They are all that is listed of runs that none was created after. -/
theorem filter_listRuns :
    (s.listRuns id none).filter (isNewestAmong (s.runsOf id)) = newestOf (s.runsOf id) := by
  have hperm := (listRuns_perm (s := s) id).filter (isNewestAmong (s.runsOf id))
  have hsublist : ((newestOf (s.runsOf id)).filter (isNewestAmong (s.runsOf id))).Sublist
      ((s.listRuns id none).filter (isNewestAmong (s.runsOf id))) :=
    newestOf_sublist_listRuns.filter _
  rw [newestOf, List.filter_filter] at hsublist
  simp only [Bool.and_self] at hsublist
  exact (hsublist.eq_of_length hperm.length_eq.symm).symm

/-- The history of a monitor starts with the first of its newest runs that the store yields. -/
theorem head?_listRuns {limit : Option Nat} (hlimit : limit ≠ some 0) :
    (s.listRuns id limit).head? = (newestOf (s.runsOf id)).head? := by
  have hall : (s.listRuns id none).head? = (newestOf (s.runsOf id)).head? := by
    rw [← filter_listRuns]
    cases hlist : s.listRuns id none with
    | nil => rfl
    | cons r rest =>
      have hsorted := listRuns_newestFirst (s := s) id
      rw [hlist] at hsorted
      have hnewest : isNewestAmong (s.runsOf id) r = true := by
        refine isNewestAmong_iff.2 fun r' hr' => ?_
        have hmem := hlist ▸ (listRuns_perm (s := s) id).mem_iff.2 hr'
        rcases List.mem_cons.1 hmem with rfl | hrest
        · exact Timestamp.le_refl _
        · exact (List.pairwise_cons.1 hsorted).1 r' hrest
      rw [List.filter_cons_of_pos hnewest, List.head?_cons, List.head?_cons]
  match limit, hlimit with
  | none, _ => exact hall
  | some 0, hlimit => exact absurd rfl hlimit
  | some (n + 1), _ =>
    rw [← hall]
    exact (List.head?_take ..).trans (if_neg (Nat.succ_ne_zero n))

/-! ## Where they agree -/

/-- A run is among the newest of its monitor, whatever the order in which the store yields them. -/
structure IsNewest (s : Store) (id : Uuid) (r : Run) : Prop where
  stored : r ∈ s.runs
  owner : r.monitorId = id
  newest : ∀ r' ∈ s.runs, r'.monitorId = id → r'.createdAt ≤ r.createdAt

theorem mem_newestOf_runsOf {r : Run} : r ∈ newestOf (s.runsOf id) ↔ s.IsNewest id r := by
  rw [mem_newestOf, mem_runsOf]
  exact ⟨fun ⟨⟨hr, howner⟩, hle⟩ =>
      ⟨hr, howner, fun r' hr' howner' => hle r' (mem_runsOf.2 ⟨hr', howner'⟩)⟩,
    fun h => ⟨⟨h.stored, h.owner⟩, fun r' hr' =>
      h.newest r' (mem_runsOf.1 hr').1 (mem_runsOf.1 hr').2⟩⟩

/-- The latest run and the first of the history are the same just where there is only one newest
run. -/
theorem head?_listRuns_eq_latestRun_iff (hids : (s.runs.map Run.id).Nodup) {limit : Option Nat}
    (hlimit : limit ≠ some 0) : (s.listRuns id limit).head? = s.latestRun id ↔
      ∀ r r', s.IsNewest id r → s.IsNewest id r' → r = r' := by
  have hnodup : (newestOf (s.runsOf id)).Nodup :=
    ((List.Nodup.of_map _ hids).filter _).filter _
  rw [head?_listRuns hlimit, latestRun_eq, head?_eq_getLast?_iff hnodup]
  simp only [mem_newestOf_runsOf]
  exact ⟨fun h r r' hr hr' => h r hr r' hr', fun h r hr r' hr' => h r r' hr hr'⟩

/-- They are the same if their identifiers are. -/
theorem head?_listRuns_eq_of_id (hids : (s.runs.map Run.id).Nodup) {limit : Option Nat}
    (h : (s.listRuns id limit).head?.map Run.id = (s.latestRun id).map Run.id) :
    (s.listRuns id limit).head? = s.latestRun id := by
  cases hlatest : s.latestRun id with
  | none => simpa [hlatest] using h
  | some r =>
    rw [hlatest] at h
    obtain ⟨first, hfirst, hid⟩ := Option.map_eq_some_iff.1 h
    have hstored := (of_mem_listRuns (List.mem_of_head? hfirst)).1
    rw [hfirst, List.inj_on_of_nodup_map hids hstored (of_latestRun hlatest).1 hid]

theorem latestRun_eq_none_iff : s.latestRun id = none ↔ s.listRuns id none = [] := by
  rw [latestRun_eq, List.getLast?_eq_none_iff, newestOf_eq_nil]
  exact ⟨fun h => ((listRuns_perm (s := s) id).trans (.of_eq h)).eq_nil,
    fun h => ((listRuns_perm (s := s) id).symm.trans (.of_eq h)).eq_nil⟩

end Store

/-! ## What is shown -/

theorem AreShown.ids_eq {xs : List Exhibit} {calls : List Move.OfPlane} {shown : List Run}
    (h : AreShown xs calls shown) : shown.map Run.id = xs.map fun x => x.run.id := by
  obtain ⟨-, hruns⟩ := h
  induction hruns with
  | nil => rfl
  | cons hx _ ih => rw [List.map_cons, List.map_cons, hx.id_eq, ih]

section

variable {s : Store} {org name : String} {m : Monitor} {calls : List Move.OfPlane}
  {shown : List Run}

/-- A monitor is shown with its latest run. -/
theorem Showing.Shows.head?_get (h : (Showing.get org name).Shows s calls shown)
    (hm : s.findByName org name = some m) :
    shown.head?.map Run.id = (s.latestRun m.id).map Run.id := by
  rw [← List.head?_map, h.areShown.ids_eq, exhibits, hm, Option.toList_some,
    List.flatMap_singleton, Store.latestOf]
  cases s.latestRun m.id <;> rfl

/-- The runs of a monitor are shown in the order in which they are listed. -/
theorem Showing.Shows.head?_runs {limit : Option Nat}
    (h : (Showing.runs org name limit).Shows s calls shown)
    (hm : s.findByName org name = some m) :
    shown.head?.map Run.id = (s.listRuns m.id limit).head?.map Run.id := by
  rw [← List.head?_map, h.areShown.ids_eq, exhibits, hm, Option.toList_some,
    List.flatMap_singleton, List.map_map, ← List.head?_map]
  rfl

end

/-- Whatever the order in which a store yields its runs, the latest run of a monitor is the last
that it yields of the newest ones and the history of any length starts with the first, so that one
is missing just where the other is. They are the same just where only one run of the monitor is the
newest; and so are the run that the monitor is shown with and the first that is shown of its
history. -/
theorem Store.latestRun_heads_history_iff {s : Store} (hids : (s.runs.map Run.id).Nodup)
    {runs : List Run} (horder : runs.Perm s.runs) (id : Uuid) :
    let t : Store := { s with runs := runs }
    t.latestRun id = (newestOf (t.runsOf id)).getLast? ∧
    (∀ limit, limit ≠ some 0 → (t.listRuns id limit).head? = (newestOf (t.runsOf id)).head?) ∧
    (t.latestRun id = none ↔ t.listRuns id none = []) ∧
    (∀ limit, limit ≠ some 0 → ((t.listRuns id limit).head? = t.latestRun id ↔
      ∀ r r', s.IsNewest id r → s.IsNewest id r' → r = r')) ∧
    ∀ org name m, t.findByName org name = some m → m.id = id →
      ∀ limit calls shown calls' shown', limit ≠ some 0 →
      (Showing.get org name).Shows t calls shown →
      (Showing.runs org name limit).Shows t calls' shown' →
      (shown'.head?.map Run.id = shown.head?.map Run.id ↔
        ∀ r r', s.IsNewest id r → s.IsNewest id r' → r = r') := by
  intro t
  have hids' : (t.runs.map Run.id).Nodup := (horder.map Run.id).nodup_iff.2 hids
  have hnewest (r : Run) : t.IsNewest id r ↔ s.IsNewest id r :=
    ⟨fun h => ⟨horder.mem_iff.1 h.stored, h.owner, fun r' hr' =>
        h.newest r' (horder.mem_iff.2 hr')⟩,
      fun h => ⟨horder.mem_iff.2 h.stored, h.owner, fun r' hr' =>
        h.newest r' (horder.mem_iff.1 hr')⟩⟩
  have hagree (limit : Option Nat) (hlimit : limit ≠ some 0) :
      (t.listRuns id limit).head? = t.latestRun id ↔
        ∀ r r', s.IsNewest id r → s.IsNewest id r' → r = r' := by
    rw [head?_listRuns_eq_latestRun_iff hids' hlimit]
    simp only [hnewest]
  refine ⟨latestRun_eq, fun limit hlimit => head?_listRuns hlimit, latestRun_eq_none_iff, hagree,
    ?_⟩
  rintro org name m hm rfl limit calls shown calls' shown' hlimit hget hruns
  rw [hget.head?_get hm, hruns.head?_runs hm, ← hagree limit hlimit]
  exact ⟨head?_listRuns_eq_of_id hids', congrArg _⟩

/-- Two runs of a monitor that were created at one instant. -/
def Store.atOnce : Store where
  monitors := [.hourly 1000 "tone" ⟨10800, 0⟩]
  runs :=
    [.pending ⟨1⟩ ⟨1000⟩ "tone-00000001" ⟨⟨0, 0⟩, ⟨3420, 0⟩⟩ [.plain "tone" "Tone"] ⟨7200, 0⟩,
      .pending ⟨2⟩ ⟨1000⟩ "tone-00000002" ⟨⟨3420, 0⟩, ⟨7020, 0⟩⟩ [.plain "tone" "Tone"] ⟨7200, 0⟩]

/-- The second of them is the latest, and the history starts with the first. -/
theorem Store.latestRun_heads_history_iff_atOnce :
    let s := Store.atOnce
    (s.runs.map Run.id).Nodup ∧ s.latestRun ⟨1000⟩ = s.runs.getLast? ∧
      (s.listRuns ⟨1000⟩ none).head? = s.runs.head? ∧
      (s.listRuns ⟨1000⟩ none).head? ≠ s.latestRun ⟨1000⟩ := by
  intro s
  have hids : (s.runs.map Run.id).Nodup := by decide
  have hnewest : newestOf (s.runsOf ⟨1000⟩) = s.runs := rfl
  obtain ⟨hlatest, hhistory, -⟩ := latestRun_heads_history_iff hids (.refl s.runs) ⟨1000⟩
  have hlatest : s.latestRun ⟨1000⟩ = s.runs.getLast? :=
    hlatest.trans (congrArg List.getLast? hnewest)
  have hfirst : (s.listRuns ⟨1000⟩ none).head? = s.runs.head? :=
    (hhistory none nofun).trans (congrArg List.head? hnewest)
  refine ⟨hids, hlatest, hfirst, fun h => ?_⟩
  rw [hlatest, hfirst] at h
  exact absurd (congrArg (Option.map Run.id) h) (by decide)

end TraceWatch
