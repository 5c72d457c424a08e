import Mathlib.Tactic.SplitIfs
import TraceWatch.Json.Value

/-!
# Canonical documents

`Json.canonical` puts the fields of every object in order, and has nothing left to do on what it has
put in order: `Json.canonical_canonical`. `JsonFields.IsCanonical` is what it makes of an object's
fields, and putting in one more field keeps it.
-/

namespace TraceWatch

namespace JsonFields

/-- Each key stands once, the keys ascend, and the values are canonical too. -/
structure IsCanonical (fields : JsonFields) : Prop where
  ascending : fields.Pairwise fun a b => a.1 < b.1
  values : ∀ field ∈ fields, field.2.canonical = field.2

theorem IsCanonical.nil : IsCanonical [] := ⟨.nil, List.forall_mem_nil _⟩

variable {key : String} {value : Json} {fields : JsonFields} {field : String × Json}

/-! ## Putting in a field -/

theorem mem_insert : ∀ {fields : JsonFields}, field ∈ insert key value fields →
    field = (key, value) ∨ field ∈ fields
  | [], h => .inl (List.mem_singleton.1 h)
  | (k, v) :: rest, h => by
    rw [insert] at h
    split_ifs at h
    · exact (List.mem_cons.1 h).imp_right (List.mem_cons_of_mem _)
    · exact List.mem_cons.1 h
    · rcases List.mem_cons.1 h with rfl | h
      · exact .inr (.head _)
      · exact (mem_insert h).imp_right (List.mem_cons_of_mem _)

theorem ascending_insert : ∀ {fields : JsonFields}, (fields.Pairwise fun a b => a.1 < b.1) →
    (insert key value fields).Pairwise fun a b => a.1 < b.1
  | [], _ => List.pairwise_singleton _ _
  | (k, v) :: rest, h => by
    obtain ⟨hfirst, hrest⟩ := List.pairwise_cons.1 h
    rw [insert]
    split_ifs with hsame hbefore
    · exact List.pairwise_cons.2 ⟨hsame ▸ hfirst, hrest⟩
    · refine List.pairwise_cons.2 ⟨fun later hlater => ?_, h⟩
      rcases List.mem_cons.1 hlater with rfl | hlater
      · exact hbefore
      · exact String.lt_trans hbefore (hfirst later hlater)
    · have hafter : k < key :=
        Decidable.byContradiction fun h => hsame (Std.Trichotomous.trichotomous _ _ hbefore h)
      refine List.pairwise_cons.2 ⟨fun later hlater => ?_, ascending_insert hrest⟩
      rcases mem_insert hlater with rfl | hlater
      · exact hafter
      · exact hfirst later hlater

/-- A canonical field that is put in leaves the fields canonical. -/
theorem IsCanonical.insert (h : IsCanonical fields) (hvalue : value.canonical = value) :
    IsCanonical (insert key value fields) := by
  refine ⟨ascending_insert h.ascending, fun field hfield => ?_⟩
  rcases mem_insert hfield with rfl | hfield
  · exact hvalue
  · exact h.values field hfield

/-! ## Sorting -/

/-- A field with a new greatest key is put in at the end. -/
theorem insert_of_greatest : ∀ {fields : JsonFields}, (∀ field ∈ fields, field.1 < key) →
    insert key value fields = fields ++ [(key, value)]
  | [], _ => rfl
  | (k, v) :: rest, h => by
    obtain ⟨hfirst, hrest⟩ := List.forall_mem_cons.1 h
    have hne : key ≠ k := fun heq => String.lt_irrefl _ (heq ▸ hfirst)
    rw [insert, if_neg hne, if_neg (String.lt_asymm hfirst), insert_of_greatest hrest]
    rfl

theorem sorted_append : ∀ {done : JsonFields} (fields : JsonFields),
    ((done ++ fields).Pairwise fun a b => a.1 < b.1) →
      fields.foldl (fun done (k, v) => insert k v done) done = done ++ fields
  | done, [], _ => (List.append_nil done).symm
  | done, (k, v) :: rest, h => by
    have hdone : ∀ field ∈ done, field.1 < k := fun field hfield =>
      (List.pairwise_append.1 h).2.2 field hfield _ (.head _)
    have hsplit : done ++ (k, v) :: rest = done ++ [(k, v)] ++ rest := by
      rw [List.append_assoc]
      rfl
    have hrest := sorted_append rest (hsplit ▸ h)
    rwa [← hsplit, ← insert_of_greatest hdone] at hrest

/-- Fields in order are left as they are. -/
theorem sorted_of_ascending (h : fields.Pairwise fun a b => a.1 < b.1) : sorted fields = fields :=
  sorted_append fields h

/-- What holds of no fields and stays when one of the fields is put in holds of the sorted ones. -/
theorem sorted_induction {P : JsonFields → Prop} (hnil : P [])
    (hinsert : ∀ field ∈ fields, ∀ done, P done → P (insert field.1 field.2 done)) :
    P (sorted fields) := by
  have hrun : ∀ (rest done : JsonFields), (∀ field ∈ rest, field ∈ fields) → P done →
      P (rest.foldl (fun done (k, v) => insert k v done) done) := by
    intro rest
    induction rest with
    | nil => exact fun _ _ h => h
    | cons field rest ih =>
      intro done hrest hdone
      obtain ⟨hfield, hrest⟩ := List.forall_mem_cons.1 hrest
      exact ih _ hrest (hinsert field hfield done hdone)
  exact hrun fields [] (fun _ h => h) hnil

/-- Fields with canonical values are canonical once they are sorted. -/
theorem isCanonical_sorted (h : ∀ field ∈ fields, field.2.canonical = field.2) :
    IsCanonical (sorted fields) :=
  sorted_induction .nil fun field hfield _ hdone => hdone.insert (h field hfield)

end JsonFields

namespace Json

open JsonFields

/-- Canonical values are left as they are. -/
theorem canonicalFields_of_values : ∀ {fields : JsonFields},
    (∀ field ∈ fields, field.2.canonical = field.2) → canonicalFields fields = fields
  | [], _ => rfl
  | (k, v) :: rest, h => by
    obtain ⟨hv, hrest⟩ := List.forall_mem_cons.1 h
    rw [canonicalFields, canonicalFields_of_values hrest, hv]

/-- An object with canonical fields is left as it is. -/
theorem canonical_object {fields : JsonFields} (h : fields.IsCanonical) :
    (object fields).canonical = .object fields := by
  rw [canonical, canonicalFields_of_values h.values, sorted_of_ascending h.ascending]

mutual

/-- A document in canonical order is left as it is. -/
theorem canonical_canonical : ∀ v : Json, v.canonical.canonical = v.canonical
  | .null => rfl
  | .bool _ => rfl
  | .number _ => rfl
  | .string _ => rfl
  | .array items => by
    rw [canonical, canonical, canonicalItems_canonicalItems items]
  | .object fields =>
    canonical_object (isCanonical_sorted fun _ h => canonical_of_mem_canonicalFields fields h)

theorem canonicalItems_canonicalItems : ∀ items : List Json,
    canonicalItems (canonicalItems items) = canonicalItems items
  | [] => rfl
  | v :: rest => by
    rw [canonicalItems, canonicalItems, canonical_canonical v, canonicalItems_canonicalItems rest]

theorem canonical_of_mem_canonicalFields {field : String × Json} : ∀ fields : JsonFields,
    field ∈ canonicalFields fields → field.2.canonical = field.2
  | [], h => absurd h List.not_mem_nil
  | (k, v) :: rest, h => by
    rcases List.mem_cons.1 h with rfl | h
    · exact canonical_canonical v
    · exact canonical_of_mem_canonicalFields rest h

end

end Json

end TraceWatch
