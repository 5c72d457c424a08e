import TraceWatch.Json.Reader
import TraceWatch.Proofs.Json.Lexing

/-!
# Documents read back

A document that is written is read back as it was, provided that its numbers are, and just if the
reader allows as many arrays and objects to be open at once as the document has inside each other:
`Json.parseWithin?_render`. A value is read where one is awaited, below the arrays and objects still
open; what is open on top then gets it as its next part.
-/

namespace TraceWatch.Json

mutual

/-- How many arrays and objects of a document lie inside each other. -/
def nesting : Json → Nat
  | .array items => itemNesting items + 1
  | .object fields => fieldNesting fields + 1
  | .null => 0
  | .bool _ => 0
  | .number _ => 0
  | .string _ => 0

/-- The deepest nesting among the items of an array. -/
def itemNesting : List Json → Nat
  | [] => 0
  | v :: rest => max (nesting v) (itemNesting rest)

/-- The deepest nesting among the values of an object. -/
def fieldNesting : List (String × Json) → Nat
  | [] => 0
  | (_, v) :: rest => max (nesting v) (fieldNesting rest)

end

namespace Reader

/-- A place for a value: the whole document, the next item of an array, or the field of an object
whose key has been read. -/
inductive Slot : List Frame → Option String → Prop
  | whole : Slot [] none
  | item (items : List Json) (below : List Frame) : Slot (.array items :: below) none
  | field (fields : List (String × Json)) (below : List Frame) (k : String) :
    Slot (.object fields :: below) (some k)

/-- The reader awaits a value. Where an array has just been opened it may also end at once. -/
def Awaits (depth : Nat) (reader : Reader) (stack : List Frame) (key : Option String) : Prop :=
  ∀ token ≠ JsonToken.closeArray, reader.step depth token = Reader.value depth stack key token

theorem awaits_value (depth : Nat) (stack : List Frame) :
    Awaits depth ⟨stack, .value⟩ stack none := fun _ _ => rfl

theorem awaits_valueOrEnd (depth : Nat) (stack : List Frame) :
    Awaits depth ⟨stack, .valueOrEnd⟩ stack none := fun token h => by
  cases token with
  | closeArray => exact absurd rfl h
  | _ => rfl

theorem awaits_fieldValue (depth : Nat) (stack : List Frame) (k : String) :
    Awaits depth ⟨stack, .fieldValue k⟩ stack (some k) := fun _ _ => rfl

/-- What is opened in the place of a value is delivered to that place when it is closed. -/
theorem push_slot {depth : Nat} {stack : List Frame} {key : Option String}
    (hslot : Slot stack key) (hdepth : stack.length < depth) (frame : Frame)
    (expecting : Expecting) : ∃ below, push depth stack key frame expecting =
      some ⟨frame :: below, expecting⟩ ∧ below.length = stack.length ∧
        ∀ v, close below v = deliver stack key v := by
  have hroom : ¬ depth ≤ stack.length := Nat.not_le.2 hdepth
  cases hslot with
  | whole => exact ⟨[], if_neg hroom, rfl, fun _ => rfl⟩
  | item items below => exact ⟨.array items :: below, if_neg hroom, rfl, fun _ => rfl⟩
  | field fields below k =>
    exact ⟨.object ((k, .null) :: fields) :: below, if_neg hroom, rfl, fun _ => rfl⟩

/-- A value of one word is delivered. -/
theorem read_word {depth : Nat} {stack : List Frame} {key : Option String} {reader : Reader}
    {token : JsonToken} (hawaits : Awaits depth reader stack key) (htoken : token ≠ .closeArray)
    (hstack : stack.length ≤ depth) : [token].foldlM (Reader.step depth) reader =
      if stack.length + 0 ≤ depth then Reader.value depth stack key token else none := by
  rw [Nat.add_zero, if_pos hstack, List.foldlM_cons, hawaits token htoken]
  exact bind_pure _

/-- What is opened is read if there is room for it and for what lies inside it. -/
theorem read_opened {depth inside : Nat} {stack : List Frame} {key : Option String}
    {reader : Reader} {token : JsonToken} {rest : List JsonToken} {frame : Frame}
    {expecting : Expecting} {v : Json} (hslot : Slot stack key)
    (hawaits : Awaits depth reader stack key) (htoken : token ≠ .closeArray)
    (hopens : Reader.value depth stack key token = push depth stack key frame expecting)
    (hrest : ∀ below, below.length + 1 ≤ depth →
      rest.foldlM (Reader.step depth) ⟨frame :: below, expecting⟩ =
        if below.length + 1 + inside ≤ depth then close below v else none) :
    (token :: rest).foldlM (Reader.step depth) reader =
      if stack.length + (inside + 1) ≤ depth then deliver stack key v else none := by
  have hopen := (hawaits token htoken).trans hopens
  by_cases hroom : stack.length < depth
  · obtain ⟨below, hpush, hlength, hclose⟩ := push_slot hslot hroom frame expecting
    rw [foldlM_cons_of_eq_some (hopen.trans hpush), hrest below (by omega), hlength, hclose,
      Nat.add_assoc, Nat.add_comm 1 inside]
  · have hfull : push depth stack key frame expecting = none := if_pos (by omega)
    rw [List.foldlM_cons, hopen, hfull, if_neg (by omega)]
    rfl

/-- Two parts are read one after the other if there is room for what lies inside each of them. -/
theorem read_both {depth room inside inside' : Nat} {reader next : Reader} {out : Option Reader}
    {part rest : List JsonToken}
    (hpart : part.foldlM (Reader.step depth) reader =
      if room + inside ≤ depth then some next else none)
    (hrest : rest.foldlM (Reader.step depth) next = if room + inside' ≤ depth then out else none) :
    (part ++ rest).foldlM (Reader.step depth) reader =
      if room + max inside inside' ≤ depth then out else none := by
  by_cases hfits : room + inside ≤ depth
  · rw [foldlM_append_of_eq_some (hpart.trans (if_pos hfits)), hrest]
    exact if_congr (by omega) rfl rfl
  · rw [List.foldlM_append, hpart, if_neg hfits, if_neg (by omega)]
    rfl

/-- In an array the next item is awaited behind a comma, and the first one at once. -/
theorem read_itemSeparator (depth : Nat) (first : Bool) (items : List Json) (below : List Frame) :
    ∃ reader, (if first then [] else [.comma] : List JsonToken).foldlM (Reader.step depth)
        ⟨.array items :: below, if first then .valueOrEnd else .commaOrEnd⟩ = some reader ∧
      Awaits depth reader (.array items :: below) none := by
  cases first with
  | true => exact ⟨_, rfl, awaits_valueOrEnd depth _⟩
  | false => exact ⟨_, rfl, awaits_value depth _⟩

/-- In an object the value of a key is awaited behind the key and a colon. -/
theorem read_fieldKey (depth : Nat) (first : Bool) (fields : List (String × Json))
    (below : List Frame) (k : String) :
    ((if first then [] else [.comma]) ++ [.string k, .colon] : List JsonToken).foldlM
        (Reader.step depth)
        ⟨.object fields :: below, if first then .keyOrEnd else .commaOrEnd⟩ =
      some ⟨.object fields :: below, .fieldValue k⟩ := by
  cases first <;> rfl

end Reader

open Reader

mutual

/-- A value is read in a place that awaits it, and delivered there if there is room for all that it
has inside. -/
theorem read_tokens (depth : Nat) : ∀ (v : Json) (stack : List Frame) (key : Option String)
    (reader : Reader), Slot stack key → Awaits depth reader stack key → stack.length ≤ depth →
    v.tokens.foldlM (Reader.step depth) reader =
      if stack.length + v.nesting ≤ depth then deliver stack key v else none
  | .null, _, _, _, _, hawaits, hstack => read_word hawaits nofun hstack
  | .bool _, _, _, _, _, hawaits, hstack => read_word hawaits nofun hstack
  | .number _, _, _, _, _, hawaits, hstack => read_word hawaits nofun hstack
  | .string _, _, _, _, _, hawaits, hstack => read_word hawaits nofun hstack
  | .array items, _, _, _, hslot, hawaits, _ => by
    rw [tokens, nesting]
    exact read_opened hslot hawaits nofun rfl fun below hbelow =>
      read_itemTokens depth true items [] below hbelow
  | .object fields, _, _, _, hslot, hawaits, _ => by
    rw [tokens, nesting]
    exact read_opened hslot hawaits nofun rfl fun below hbelow =>
      read_fieldTokens depth true fields [] below hbelow

/-- The items of an array are read behind those already there, and the array is closed. -/
theorem read_itemTokens (depth : Nat) (first : Bool) :
    ∀ (items done : List Json) (below : List Frame), below.length + 1 ≤ depth →
    (itemTokens first items).foldlM (Reader.step depth)
        ⟨.array done :: below, if first then .valueOrEnd else .commaOrEnd⟩ =
      if below.length + 1 + itemNesting items ≤ depth then
        close below (.array (done.reverse ++ items)) else none
  | [], done, below, hbelow => by
    have hclose : (itemTokens first []).foldlM (Reader.step depth)
        ⟨.array done :: below, if first then .valueOrEnd else .commaOrEnd⟩ =
          close below (.array done.reverse) := by
      cases first <;> exact bind_pure _
    rw [hclose, List.append_nil, itemNesting, if_pos hbelow]
  | v :: rest, done, below, hbelow => by
    obtain ⟨reader, hseparator, hawaits⟩ := read_itemSeparator depth first done below
    have hvalue := read_tokens depth v _ none reader (.item done below) hawaits hbelow
    have hrest := read_itemTokens depth false rest (v :: done) below hbelow
    rw [itemTokens, List.append_assoc, foldlM_append_of_eq_some hseparator, itemNesting]
    refine (read_both hvalue hrest).trans (if_congr Iff.rfl ?_ rfl)
    rw [List.reverse_cons, List.append_assoc]
    rfl

/-- The fields of an object are read behind those already there, and the object is closed. -/
theorem read_fieldTokens (depth : Nat) (first : Bool) :
    ∀ (fields done : List (String × Json)) (below : List Frame), below.length + 1 ≤ depth →
    (fieldTokens first fields).foldlM (Reader.step depth)
        ⟨.object done :: below, if first then .keyOrEnd else .commaOrEnd⟩ =
      if below.length + 1 + fieldNesting fields ≤ depth then
        close below (.object (done.reverse ++ fields)) else none
  | [], done, below, hbelow => by
    have hclose : (fieldTokens first []).foldlM (Reader.step depth)
        ⟨.object done :: below, if first then .keyOrEnd else .commaOrEnd⟩ =
          close below (.object done.reverse) := by
      cases first <;> exact bind_pure _
    rw [hclose, List.append_nil, fieldNesting, if_pos hbelow]
  | (k, v) :: rest, done, below, hbelow => by
    have hkey := read_fieldKey depth first done below k
    have hvalue := read_tokens depth v _ (some k) _ (.field done below k)
      (awaits_fieldValue depth _ k) hbelow
    have hrest := read_fieldTokens depth false rest ((k, v) :: done) below hbelow
    have hsplit : fieldTokens first ((k, v) :: rest) =
        ((if first then [] else [.comma]) ++ [.string k, .colon]) ++
          (tokens v ++ fieldTokens false rest) := by
      rw [fieldTokens]
      simp only [List.append_assoc, List.cons_append, List.nil_append]
    rw [hsplit, foldlM_append_of_eq_some hkey, fieldNesting]
    refine (read_both hvalue hrest).trans (if_congr Iff.rfl ?_ rfl)
    rw [List.reverse_cons, List.append_assoc]
    rfl

end

/-- The words of a document make it up, unless it has more arrays and objects inside each other than
may be open. -/
theorem ofTokens?_tokens (depth : Nat) (v : Json) :
    ofTokens? depth v.tokens = if v.nesting ≤ depth then some v else none := by
  have hread := read_tokens depth v [] none _ .whole (awaits_value depth []) (Nat.zero_le depth)
  rw [List.length_nil, Nat.zero_add] at hread
  rw [ofTokens?, hread]
  split <;> rfl

/-- A document is read back from its text, unless it has more arrays and objects inside each other
than may be open. -/
theorem parseWithin?_render (depth : Nat) {v : Json} (hnumbers : ∀ n ∈ v.numbers, n.ReadsBack) :
    parseWithin? depth v.render = if v.nesting ≤ depth then some v else none := by
  rw [parseWithin?, render, String.toList_ofList, tokens?_chars hnumbers]
  exact ofTokens?_tokens depth v

end TraceWatch.Json
