import Mathlib.Data.List.DropRight
import TraceWatch.Job
import TraceWatch.Proofs.Monitors.Pattern
import TraceWatch.Proofs.Text.Uuid

/-!
# The names of jobs

The name of a job is made of the name of the monitor and the first eight digits of the identifier of
the run. Whatever the name of the monitor, the name of the job is short and ends with a single
hyphen and the digits. A name that the rules accept goes whole into it, and then the name of the job
is a label from which both parts can be read off: `jobName_names`.
-/

namespace TraceWatch

variable {name name' : String} {id id' : Uuid}

/-! ## The digits of an identifier -/

theorem Uuid.length_short (id : Uuid) : id.short.toList.length = 8 := by
  rw [short, String.toList_ofList, List.length_take, id.length_digits]
  rfl

/-- The short form of an identifier is the beginning of its text. -/
theorem Uuid.toList_short (id : Uuid) : id.short.toList = id.render.toList.take 8 := by
  have hlength : (id.digits.take 8).length = 8 := by
    rw [List.length_take, id.length_digits]
    rfl
  rw [render, short, String.toList_ofList, String.toList_ofList]
  simp only [List.append_assoc]
  rw [List.take_left' hlength]

/-- The digits of an identifier are among the letters and digits of names. -/
theorem Uuid.mem_short {c : Char} (h : c ∈ id.short.toList) :
    c ∈ Rules.letters ++ Rules.digits := by
  have hdigits : ∀ k < 16, Nat.digitChar k ∈ Rules.letters ++ Rules.digits := by decide
  rw [short, String.toList_ofList] at h
  obtain ⟨i, -, rfl⟩ := List.mem_map.1 (List.mem_of_mem_take h)
  exact hdigits _ (Nat.mod_lt _ (by decide))

/-! ## The name of any job -/

/-- What the name of a job keeps of the name of the monitor. -/
def jobStem (name : String) : List Char :=
  (name.toList.take (maxJobName - 8 - 1)).rdropWhile (· = '-')

theorem jobName_eq (name : String) (id : Uuid) :
    jobName name id = String.ofList (jobStem name) ++ "-" ++ id.short := rfl

theorem length_jobStem_le (name : String) : (jobStem name).length ≤ 54 :=
  (List.rdropWhile_prefix _ _).length_le.trans (List.length_take_le _ _)

/-- No hyphen is left at the end of what is kept. -/
theorem getLast?_jobStem_ne (name : String) : (jobStem name).getLast? ≠ some '-' := by
  intro hlast
  have hne : jobStem name ≠ [] := by
    intro hnil
    rw [hnil] at hlast
    cases hlast
  rw [List.getLast?_eq_some_getLast hne] at hlast
  exact List.rdropWhile_last_not _ _ hne (decide_eq_true (Option.some.inj hlast))

theorem length_jobName_le (name : String) (id : Uuid) : (jobName name id).toList.length ≤ 63 := by
  have hstem := length_jobStem_le name
  have hshort := id.length_short
  simp only [jobName_eq, String.toList_append, String.toList_ofList, List.length_append]
  rw [hshort]
  exact Nat.add_le_add_right (Nat.add_le_add_right hstem 1) 8

/-! ## The names of jobs of monitors whose names keep to the rules -/

/-- Nothing is cut off a name that keeps to the rules. -/
theorem Rules.IsProperName.jobStem_eq (h : Rules.IsProperName name) :
    jobStem name = name.toList := by
  have hkept : name.toList.take (maxJobName - 8 - 1) = name.toList :=
    List.take_of_length_le (Nat.le_trans h.length.2 (by decide))
  rw [jobStem, hkept, List.rdropWhile_eq_self_iff]
  intro hne hhyphen
  refine h.last ?_
  rw [List.getLast?_eq_some_getLast hne, of_decide_eq_true hhyphen]

/-- A monitor's name that keeps to the rules goes whole into the names of its jobs. -/
theorem jobName_of_checkName (h : Rules.checkName name = .ok ()) (id : Uuid) :
    jobName name id = name ++ "-" ++ id.short := by
  rw [jobName_eq, (Rules.checkName_eq_ok.1 h).jobStem_eq, String.ofList_toList]

/-- The name of a job tells the name of the monitor and the first digits of the run. -/
theorem jobName_inj (h : Rules.checkName name = .ok ()) (h' : Rules.checkName name' = .ok ()) :
    jobName name id = jobName name' id' ↔ name = name' ∧ id.short = id'.short := by
  rw [jobName_of_checkName h, jobName_of_checkName h']
  refine ⟨fun heq => ?_, fun ⟨hname, hshort⟩ => by rw [hname, hshort]⟩
  have hlists := congrArg String.toList heq
  rw [String.toList_append, String.toList_append, String.toList_append, String.toList_append]
    at hlists
  obtain ⟨hnames, hshorts⟩ :=
    List.append_inj' hlists (id.length_short.trans id'.length_short.symm)
  have hstems := List.append_cancel_right hnames
  exact ⟨String.toList_injective hstems, String.toList_injective hshorts⟩

/-- A label of a domain name: up to 63 letters, digits and hyphens, with a letter first and no
hyphen last. -/
structure IsLabel (text : String) : Prop where
  length : text.toList.length ≤ 63
  characters : ∀ c ∈ text.toList, c ∈ Rules.letters ++ Rules.digits ++ ['-']
  first : ∃ c ∈ Rules.letters, text.toList.head? = some c
  last : ∃ c ∈ Rules.letters ++ Rules.digits, text.toList.getLast? = some c

/-- The name of a job of a monitor whose name keeps to the rules is a label. -/
theorem isLabel_jobName (h : Rules.checkName name = .ok ()) (id : Uuid) :
    IsLabel (jobName name id) := by
  have hproper := Rules.checkName_eq_ok.1 h
  have hlist : (jobName name id).toList = name.toList ++ '-' :: id.short.toList := by
    rw [jobName_of_checkName h, String.toList_append, String.toList_append, List.append_assoc]
    rfl
  refine ⟨length_jobName_le name id, fun c hc => ?_, ?_, ?_⟩
  · rw [hlist, List.mem_append, List.mem_cons] at hc
    rcases hc with hc | rfl | hc
    · exact hproper.characters c hc
    · exact List.mem_append_right _ (List.mem_singleton_self _)
    · exact List.mem_append_left _ (Uuid.mem_short hc)
  · obtain ⟨c, hc, hfirst⟩ := hproper.first
    exact ⟨c, hc, by rw [hlist, List.head?_append, hfirst, Option.some_or]⟩
  · have hlength := id.length_short
    obtain hnil | ⟨front, c, hshort⟩ := List.eq_nil_or_concat' id.short.toList
    · rw [hnil] at hlength
      cases hlength
    · have hlast : (jobName name id).toList = (name.toList ++ '-' :: front) ++ [c] := by
        rw [hlist, hshort, List.append_assoc, List.cons_append]
      have hc : c ∈ id.short.toList := hshort ▸ List.mem_append_right _ (List.mem_singleton_self c)
      exact ⟨c, Uuid.mem_short hc, by rw [hlast, List.getLast?_concat]⟩

/-! ## The statement -/

/-- What the name of the job of a run tells. -/
structure NamesJob (name : String) (id : Uuid) (job : String) : Prop where
  length : job.toList.length ≤ 63
  /-- It ends with a hyphen and the first eight digits of the run, and before that hyphen stands no
  other. -/
  ending : ∃ stem, job = stem ++ "-" ++ id.short ∧ stem.toList.getLast? ≠ some '-'
  /-- A name that the rules accept stands before the hyphen as it is. -/
  whole : Rules.checkName name = .ok () → job = name ++ "-" ++ id.short
  label : Rules.checkName name = .ok () → IsLabel job
  /-- Among the names that the rules accept, no other name and no other digits make it. -/
  parts : Rules.checkName name = .ok () → ∀ name' id', Rules.checkName name' = .ok () →
    (jobName name' id' = job ↔ name' = name ∧ id'.short = id.short)

/-- The rules accept the names that match the pattern, that is, the proper ones. The job of a run is
named after the monitor and the first eight digits of the text of the run's identifier. -/
theorem jobName_names (name : String) (id : Uuid) :
    (Rules.checkName name = .ok () ↔ name.toList ∈ Rules.namePattern.matches') ∧
      (Rules.checkName name = .ok () ↔ Rules.IsProperName name) ∧
      id.short.toList = id.render.toList.take 8 ∧ NamesJob name id (jobName name id) := by
  have hproper : Rules.checkName name = .ok () ↔ Rules.IsProperName name := Rules.checkName_eq_ok
  refine ⟨hproper.trans Rules.matches_namePattern_iff.symm, hproper, id.toList_short, ?_⟩
  refine ⟨length_jobName_le name id, ⟨String.ofList (jobStem name), jobName_eq name id, ?_⟩,
    fun h => jobName_of_checkName h id, fun h => isLabel_jobName h id,
    fun h name' id' h' => jobName_inj h' h⟩
  rw [String.toList_ofList]
  exact getLast?_jobStem_ne name

/-- Of the longest name that the rules accept, and of one that they do not, which is cut between two
hyphens. -/
theorem jobName_names_longest :
    let longest := String.ofList ('a' :: List.replicate 48 '-' ++ ['0'])
    let cut := String.ofList (List.replicate 53 'a' ++ ['-', '-', 'b'])
    let id : Uuid := ⟨0x9e3779b1#128 <<< 96⟩
    Rules.checkName longest = .ok () ∧ NamesJob longest id (jobName longest id) ∧
      Rules.checkName cut = .error (.invalidName cut) ∧ NamesJob cut id (jobName cut id) ∧
      jobName cut id = String.ofList (List.replicate 53 'a') ++ "-9e3779b1" :=
  ⟨by decide +kernel, (jobName_names _ _).2.2.2, by decide +kernel, (jobName_names _ _).2.2.2,
    by decide +kernel⟩

end TraceWatch
