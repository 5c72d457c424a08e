import TraceWatch.Job
import TraceWatch.Proofs.Json.Canonical
import TraceWatch.Proofs.Json.Reading
import TraceWatch.Proofs.System.Replay
import TraceWatch.Proofs.Text.Uuid
import TraceWatch.Proofs.Time.Rfc3339

/-!
# What a job is told

A job is told in texts what to evaluate: the evaluators as a document, the window as two instants,
the monitor and the run by their identifiers. Nothing is lost on the way, unless the settings of an
evaluator have more arrays and objects inside each other than the reader of documents lets them
have (`JobSpec.evaluators_lost`): `JobSpec.parameters_readBack` reads every one of these texts back.
-/

namespace TraceWatch

namespace Evaluator

/-! ## Settings -/

theorem isCanonical_plain (identifier displayName : String) :
    (plain identifier displayName).settings.IsCanonical := .nil

/-- A setting that is put in is put in order. -/
theorem isCanonical_withSetting {e : Evaluator} (h : e.settings.IsCanonical) (name : String)
    (value : Json) : (e.withSetting name value).settings.IsCanonical :=
  h.insert value.canonical_canonical

/-- Settings that are read are put in order. -/
theorem isCanonical_of_settingsOfJson? {document : Json} {settings : JsonFields}
    (h : settingsOfJson? document = some settings) : settings.IsCanonical := by
  cases document with
  | object fields =>
    cases h
    exact JsonFields.isCanonical_sorted fun _ => Json.canonical_of_mem_canonicalFields fields
  | _ => cases h

/-- Settings in order are read as they are. -/
theorem settingsOfJson?_object {settings : JsonFields} (h : settings.IsCanonical) :
    settingsOfJson? (.object settings) = some settings := by
  rw [settingsOfJson?, Json.canonical_object h]

/-! ## Evaluators as documents -/

/-- An evaluator that is read has its settings in order. -/
theorem isCanonical_of_ofJson? {document : Json} {e : Evaluator} (h : ofJson? document = some e) :
    e.settings.IsCanonical := by
  obtain ⟨record, -, h⟩ := Option.bind_eq_some_iff.1 h
  obtain ⟨identifier, -, h⟩ := Option.bind_eq_some_iff.1 h
  obtain ⟨displayName, -, h⟩ := Option.bind_eq_some_iff.1 h
  obtain ⟨settings, hsettings, h⟩ := Option.bind_eq_some_iff.1 h
  cases h
  rw [Record.withDefault] at hsettings
  split at hsettings
  · cases hsettings
    exact .nil
  · exact isCanonical_of_settingsOfJson? hsettings

/-- So has each of a list of them. -/
theorem isCanonical_of_listOfJson? {document : Json} {evaluators : List Evaluator}
    (h : listOfJson? document = some evaluators) : ∀ e ∈ evaluators, e.settings.IsCanonical := by
  cases document with
  | array items =>
    change items.mapM ofJson? = some evaluators at h
    induction items generalizing evaluators with
    | nil =>
      cases h
      exact List.forall_mem_nil _
    | cons item items ih =>
      rw [List.mapM_cons] at h
      obtain ⟨e, he, h⟩ := Option.bind_eq_some_iff.1 h
      obtain ⟨rest, hrest, h⟩ := Option.bind_eq_some_iff.1 h
      cases h
      exact List.forall_mem_cons.2 ⟨isCanonical_of_ofJson? he, ih hrest⟩
  | _ => cases h

/-- An evaluator is read back from its document. -/
theorem ofJson?_toJson {e : Evaluator} (h : e.settings.IsCanonical) :
    ofJson? e.toJson = some e := by
  have hfields : ofJson? e.toJson = (settingsOfJson? (.object e.settings)).bind fun settings =>
      some ⟨e.identifier, e.displayName, settings⟩ := rfl
  rw [hfields, settingsOfJson?_object h]
  rfl

/-- So is a list of them, in its order. -/
theorem listOfJson?_listToJson {evaluators : List Evaluator}
    (h : ∀ e ∈ evaluators, e.settings.IsCanonical) :
    listOfJson? (listToJson evaluators) = some evaluators := by
  rw [listToJson, listOfJson?, Json.listOf, List.mapM_map]
  induction evaluators with
  | nil => rfl
  | cons e rest ih =>
    obtain ⟨he, hrest⟩ := List.forall_mem_cons.1 h
    have hfirst : (ofJson? ∘ toJson) e = some e := ofJson?_toJson he
    rw [List.mapM_cons, hfirst, ih hrest]
    rfl

/-- The settings of an evaluator lie inside its document. -/
theorem nesting_toJson (e : Evaluator) :
    e.toJson.nesting = (Json.object e.settings).nesting + 1 := by
  simp [toJson, Json.nesting, Json.fieldNesting]

/-- In the document of a list of evaluators they lie inside the list as well. -/
theorem nesting_listToJson_le {evaluators : List Evaluator} {depth : Nat} :
    (listToJson evaluators).nesting ≤ depth + 2 ↔
      ∀ e ∈ evaluators, (Json.object e.settings).nesting ≤ depth := by
  rw [listToJson, Json.nesting]
  induction evaluators with
  | nil => simp [Json.itemNesting]
  | cons e rest ih =>
    rw [List.map_cons, Json.itemNesting, nesting_toJson, List.forall_mem_cons, ← ih]
    omega

end Evaluator

/-- How many arrays and objects may lie inside each other in the settings of an evaluator if a list
of evaluators is to be read: the list and the evaluator are open then as well. -/
def Evaluator.maxDepth : Nat := Json.maxDepth - 2

/-- What a job is told is read back as what it was made from: the two ends of the window, by the
reader of every instant that the service is given; the two identifiers; and the evaluators in their
order, just if none of them has more arrays and objects inside each other in its settings than the
reader of documents admits. A whole number in the settings is to be one of those that are kept
exactly, and a binary one has to be read back from its own text. -/
theorem JobSpec.parameters_readBack (name space template : String) (m : Monitor) (run : Uuid)
    {window : Window} {evaluators : List Evaluator} (hstart : window.start.IsWholeSecond)
    (hstop : window.stop.IsWholeSecond) (hsettings : ∀ e ∈ evaluators, e.settings.IsCanonical)
    (hwhole : ∀ i, .whole i ∈ (Evaluator.listToJson evaluators).numbers →
      -2 ^ 63 ≤ i ∧ i < 2 ^ 64)
    (hbinary : ∀ x, .binary x ∈ (Evaluator.listToJson evaluators).numbers →
      (JsonNumber.binary x).ReadsBack) :
    let told := (JobSpec.make name space template m run window evaluators).parameters
    Timestamp.parse? told.traceStart = some window.start ∧
      Timestamp.parse? told.traceEnd = some window.stop ∧
      Uuid.parse? told.monitorId = some m.id ∧ Uuid.parse? told.runId = some run ∧
      ((Json.parse? told.evaluators).bind Evaluator.listOfJson? = some evaluators ↔
        ∀ e ∈ evaluators, (Json.object e.settings).nesting ≤ Evaluator.maxDepth) := by
  have hnumbers : ∀ n ∈ (Evaluator.listToJson evaluators).numbers, n.ReadsBack := by
    rintro (i | x) hn
    · exact JsonNumber.readsBack_whole (hwhole i hn).1 (hwhole i hn).2
    · exact hbinary x hn
  refine ⟨Timestamp.parse?_renderSeconds hstart, Timestamp.parse?_renderSeconds hstop,
    m.id.parse?_render, run.parse?_render, ?_⟩
  rw [← Evaluator.nesting_listToJson_le, JobSpec.make, Json.parse?,
    Json.parseWithin?_render Json.maxDepth hnumbers]
  change _ ↔ (Evaluator.listToJson evaluators).nesting ≤ Json.maxDepth
  split
  · next hfits => exact iff_of_true (Evaluator.listOfJson?_listToJson hsettings) hfits
  · next hdeep => exact iff_of_false nofun hdeep

/-- Arrays inside each other, this many of them. -/
def Json.nested : Nat → Json
  | 0 => .null
  | n + 1 => .array [nested n]

/-- Two evaluators as a request may give them. The settings of the first come in no order and hold
numbers of both sorts and keys that need escapes, and they have as many arrays inside each other as
they may. The second has no settings. -/
def Evaluator.intricate : Json :=
  .array [
    .object [
      ("config", .object [
        ("rest", .nested 124),
        ("limits", .array [.object [("b\\\n", .null),
          ("a\x01é", .array [.whole (-5), .binary (.ofRatio false 1 2)])], .object []])]),
      ("displayName", .string "Tone \"of voice\""), ("identifier", .string "tone")],
    .object [("identifier", .string "\t"), ("displayName", .string "")]]

/-- A window from a leap second of a year before the first to a year of five digits. -/
def Window.wide : Window := ⟨⟨-99999999961, 1000000000⟩, ⟨253402300800, 0⟩⟩

theorem Window.wide_isWholeSecond :
    Window.wide.start.IsWholeSecond ∧ Window.wide.stop.IsWholeSecond :=
  ⟨⟨by decide, by decide, by decide⟩, ⟨by decide, by decide, by decide⟩⟩

/-- What a job is told of these evaluators and this window, and that it is read back. -/
theorem JobSpec.parameters_readBack_intricate :
    let evaluators := (Evaluator.listOfJson? Evaluator.intricate).getD []
    let m := Monitor.hourly 1 "care" ⟨0, 0⟩
    let run : Uuid := ⟨BitVec.ofNat 128 (2 ^ 127 + 11)⟩
    let told := (JobSpec.make "care-80000000" "acme" "evaluation" m run .wide evaluators).parameters
    Evaluator.listOfJson? Evaluator.intricate = some evaluators ∧
      (Evaluator.listToJson evaluators).numbers = [.whole (-5), .binary (.ofRatio false 1 2)] ∧
      told.traceStart = "-1199-02-15T14:13:60Z" ∧ told.traceEnd = "+10000-01-01T00:00:00Z" ∧
      told.runId = "80000000-0000-0000-0000-00000000000b" ∧
      Timestamp.parse? told.traceStart = some Window.wide.start ∧
      Timestamp.parse? told.traceEnd = some Window.wide.stop ∧
      Uuid.parse? told.monitorId = some m.id ∧ Uuid.parse? told.runId = some run ∧
      (Json.parse? told.evaluators).bind Evaluator.listOfJson? = some evaluators := by
  intro evaluators m run told
  have hread : Evaluator.listOfJson? Evaluator.intricate = some evaluators :=
    (Option.getD_of_ne_none
      (Option.isSome_iff_ne_none.1 (by decide +kernel)) []).symm
  have hnumbers : (Evaluator.listToJson evaluators).numbers =
      [.whole (-5), .binary (.ofRatio false 1 2)] := by decide +kernel
  have hwhole : ∀ i, .whole i ∈ (Evaluator.listToJson evaluators).numbers →
      -2 ^ 63 ≤ i ∧ i < 2 ^ 64 := by
    simp [hnumbers]
  have hbinary : ∀ x, .binary x ∈ (Evaluator.listToJson evaluators).numbers →
      (JsonNumber.binary x).ReadsBack := by
    simp only [hnumbers, List.mem_cons, reduceCtorEq, false_or, List.not_mem_nil, or_false]
    rintro x h
    rw [h]
    decide +kernel
  obtain ⟨hstart, hstop, hmonitor, hrun, hevaluators⟩ := JobSpec.parameters_readBack
    "care-80000000" "acme" "evaluation" m run Window.wide_isWholeSecond.1
    Window.wide_isWholeSecond.2 (Evaluator.isCanonical_of_listOfJson? hread) hwhole hbinary
  exact ⟨hread, hnumbers, by decide +kernel, by decide +kernel, by decide +kernel, hstart, hstop,
    hmonitor, hrun, hevaluators.2 (by decide +kernel)⟩

/-- An evaluator whose settings have one array more inside each other than they may. -/
def Evaluator.tooDeep : Evaluator := (plain "tone" "Tone").withSetting "rest" (.nested 125)

/-- What a job is told of such an evaluator is not read back. -/
theorem JobSpec.evaluators_lost :
    let m := Monitor.hourly 1 "care" ⟨0, 0⟩
    let told := (JobSpec.make "care-80000000" "acme" "evaluation" m ⟨1⟩ .wide
      [.tooDeep]).parameters
    Window.wide.start.IsWholeSecond ∧ Window.wide.stop.IsWholeSecond ∧
      Evaluator.tooDeep.settings.IsCanonical ∧
      (∀ n ∈ (Evaluator.listToJson [.tooDeep]).numbers, n.ReadsBack) ∧
      (Json.parse? told.evaluators).bind Evaluator.listOfJson? ≠ some [.tooDeep] := by
  intro m told
  have hnumbers : ∀ n ∈ (Evaluator.listToJson [.tooDeep]).numbers, n.ReadsBack := by
    decide +kernel
  have hdeep : ¬ (Evaluator.listToJson [.tooDeep]).nesting ≤ Json.maxDepth := by decide +kernel
  have hrefused : Json.parse? told.evaluators = none :=
    (Json.parseWithin?_render Json.maxDepth hnumbers).trans (if_neg hdeep)
  refine ⟨Window.wide_isWholeSecond.1, Window.wide_isWholeSecond.2,
    Evaluator.isCanonical_withSetting (Evaluator.isCanonical_plain _ _) _ _, hnumbers, ?_⟩
  rw [hrefused]
  exact nofun

end TraceWatch
