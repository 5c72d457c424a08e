import Mathlib.Data.List.Flatten
import Mathlib.Data.List.Forall2
import Mathlib.Data.List.TakeWhile
import TraceWatch.Proofs.Text.Octets
import TraceWatch.Url.Parser

/-!
# Following a path

A path is followed segment by segment. `Url.settle` is what following leaves of segments after
which others come, and the directory of a path is what there is of it before the last slash. Each
segment adds to a path at most what its text takes, and exactly that only if it is kept as it is
(`Url.follow_or_weight_lt`). So what a path weighs tells whether texts with slashes between them
have become the segments that stand for them (`Url.follow_standsFor_iff`).
-/

namespace TraceWatch

/-- The segments of a path without an empty one at its end. -/
def UrlPath.directory : UrlPath → List String
  | .segments names => if names.getLast? = some "" then names.dropLast else names
  | .rootless _ => []

namespace Url

/-- The segment is neither `.` nor `..`. -/
def IsKept (segment : List Char) : Prop :=
  plainStops segment ≠ ['.'] ∧ plainStops segment ≠ ['.', '.']

instance (segment : List Char) : Decidable (IsKept segment) := inferInstanceAs (Decidable (_ ∧ _))

/-- What following segments leaves, back to front, if others come after them. -/
def settle (done : List String) : List (List Char) → List String
  | [] => done
  | segment :: rest =>
    if plainStops segment = ['.', '.'] then settle done.tail rest
    else if plainStops segment = ['.'] then settle done rest
    else settle (escape escapedInPath segment :: done) rest

/-! ## Directories -/

section

variable {kind : SchemeKind} {done : List String} {segment : List Char} {rest : List (List Char)}

theorem settle_append (done : List String) (first second : List (List Char)) :
    settle done (first ++ second) = settle (settle done first) second := by
  induction first generalizing done with
  | nil => rfl
  | cons segment first ih =>
    rw [List.cons_append, settle, settle]
    split
    · exact ih _
    · split <;> exact ih _

/-- Away from files a path loses its last segment. -/
theorem shorten_eq_tail (hkind : kind ≠ .file) (done : List String) :
    shorten kind done = done.tail := by
  match done with
  | [] => rfl
  | [only] => simp [shorten, hkind]
  | _ :: _ :: _ => rfl

/-- Away from files a segment is followed, or it is kept with its escapes. -/
theorem follow_cons (hkind : kind ≠ .file) (done : List String) (segment : List Char)
    (rest : List (List Char)) :
    follow kind done (segment :: rest) =
      if plainStops segment = ['.', '.'] then
        follow kind (if rest.isEmpty then "" :: done.tail else done.tail) rest
      else if plainStops segment = ['.'] then
        follow kind (if rest.isEmpty then "" :: done else done) rest
      else follow kind (escape escapedInPath segment :: done) rest := by
  have hdrive : isFirstDrive kind done segment = false := by
    rw [isFirstDrive, decide_eq_false hkind, Bool.false_and, Bool.false_and]
  rw [follow, shorten_eq_tail hkind, hdrive]
  rfl

/-- Segments are followed on from what those before them leave. -/
theorem follow_append (hkind : kind ≠ .file) {last : List (List Char)} (hlast : last ≠ [])
    (done : List String) (first : List (List Char)) :
    follow kind done (first ++ last) = follow kind (settle done first) last := by
  induction first generalizing done with
  | nil => rfl
  | cons segment first ih =>
    have hmore : (first ++ last).isEmpty = false := by
      rw [List.isEmpty_eq_false_iff]
      exact List.append_ne_nil_of_right_ne_nil first hlast
    rw [List.cons_append, follow_cons hkind, hmore, settle]
    simp only [Bool.false_eq_true, if_false]
    split
    · exact ih _
    · split <;> exact ih _

theorem directory_concat_empty (names : List String) :
    UrlPath.directory (.segments (names ++ [""])) = names := by
  rw [UrlPath.directory, List.getLast?_concat, if_pos rfl, List.dropLast_concat]

theorem directory_concat {name : String} (h : name ≠ "") (names : List String) :
    UrlPath.directory (.segments (names ++ [name])) = names ++ [name] := by
  rw [UrlPath.directory, List.getLast?_concat, if_neg fun heq => h (Option.some.inj heq)]

/-- A text with its escapes is empty only if the text is. -/
theorem escape_ne_empty {escapes : Char → Bool} (h : segment ≠ []) :
    escape escapes segment ≠ "" := by
  obtain ⟨c, rest, rfl⟩ := List.exists_cons_of_ne_nil h
  rw [escape, Text.percentEncode_cons, Ne, String.ofList_eq_empty_iff, List.append_eq_nil_iff]
  refine fun hnil => absurd hnil.1 ?_
  split
  · obtain ⟨octet, row, hrow⟩ :=
      List.exists_cons_of_length_pos (Text.one_le_length_octets c)
    rw [hrow]
    exact List.cons_ne_nil _ _
  · exact List.cons_ne_nil _ _

/-- The directory of a path whose text does not end in a slash is what following it leaves if
others come after it. -/
theorem directory_follow (hkind : kind ≠ .file) {path : List (List Char)} (hpath : path ≠ [])
    (hlast : path.getLast? ≠ some []) :
    UrlPath.directory (.segments (follow kind [] path)) = (settle [] path).reverse := by
  obtain ⟨first, last, rfl⟩ := (List.eq_nil_or_concat path).resolve_left hpath
  rw [List.concat_eq_append] at hlast ⊢
  rw [List.getLast?_concat] at hlast
  rw [follow_append hkind (List.cons_ne_nil _ _), settle_append, follow_cons hkind, settle]
  simp only [List.isEmpty_nil, if_true]
  split
  · rw [follow, settle, List.reverse_cons, directory_concat_empty]
  split
  · rw [follow, settle, List.reverse_cons, directory_concat_empty]
  · rw [follow, settle, List.reverse_cons, directory_concat]
    exact escape_ne_empty fun heq => hlast (congrArg some heq)

end

/-! ## The weight of a path -/

/-- How many octets a text has. -/
def extent (text : List Char) : Nat := (text.flatMap Text.octets).length

/-- How many octets segments stand for, with a slash before each. -/
def weight : List String → Nat
  | [] => 0
  | name :: names => (Text.percentDecode name.toList).length + 1 + weight names

/-- How many octets there are in segments, with a slash before each. -/
def span : List (List Char) → Nat
  | [] => 0
  | segment :: rest => extent segment + 1 + span rest

section

variable {kind : SchemeKind} {segment : List Char}

theorem weight_append (names names' : List String) :
    weight (names ++ names') = weight names + weight names' := by
  induction names with
  | nil => exact (Nat.zero_add _).symm
  | cons name names ih => rw [List.cons_append, weight, weight, ih, Nat.add_assoc _ (weight names)]

theorem weight_reverse (names : List String) : weight names.reverse = weight names := by
  induction names with
  | nil => rfl
  | cons name names ih =>
    rw [List.reverse_cons, weight_append, ih, Nat.add_comm]
    rfl

theorem weight_tail_le (names : List String) : weight names.tail ≤ weight names := by
  cases names with
  | nil => exact Nat.le_refl _
  | cons name names =>
    rw [weight]
    exact Nat.le_add_left _ _

theorem extent_cons (c : Char) (text : List Char) :
    extent (c :: text) = (Text.octets c).length + extent text := by
  rw [extent, List.flatMap_cons, List.length_append, extent]

theorem escapedInPath_of_hexValue? {c : Char} (h : (Text.hexValue? c).isSome = true) :
    escapedInPath c = false :=
  Text.of_forall_ascii (p := fun c => (Text.hexValue? c).isSome = true → escapedInPath c = false)
    (by decide) (Text.lt_of_hexValue? h) h

/-- A segment with its escapes stands for the octets of the segment, or for fewer if it had an
escape already. -/
theorem percentDecode_escape (segment : List Char) :
    (¬ Text.HasEscape segment ∧
        Text.percentDecode (escape escapedInPath segment).toList =
          segment.flatMap Text.octets) ∨
      (Text.HasEscape segment ∧
        (Text.percentDecode (escape escapedInPath segment).toList).length < extent segment) := by
  rw [escape, String.toList_ofList]
  exact Text.percentDecode_percentEncode (by decide) (fun _ => escapedInPath_of_hexValue?) segment

/-- Segments without escapes weigh what their texts take. -/
theorem weight_map_escape : ∀ {path : List (List Char)},
    (∀ segment ∈ path, ¬ Text.HasEscape segment) →
      weight (path.map (escape escapedInPath)) = span path
  | [], _ => rfl
  | segment :: rest, h => by
    obtain ⟨hsegment, hrest⟩ := List.forall_mem_cons.1 h
    have hread := ((percentDecode_escape segment).resolve_right fun h => hsegment h.1).2
    rw [List.map_cons, weight, hread, weight_map_escape hrest, span, extent]

theorem one_le_extent (h : segment ≠ []) : 1 ≤ extent segment := by
  obtain ⟨c, rest, rfl⟩ := List.exists_cons_of_ne_nil h
  rw [extent_cons]
  exact Nat.le_trans (Text.one_le_length_octets c) (Nat.le_add_right _ _)

/-- Following segments adds to a path what their texts take if each is kept as it is, and less if
one is not. -/
theorem follow_or_weight_lt (hkind : kind ≠ .file) :
    ∀ (path : List (List Char)) (done : List String),
      (follow kind done path = done.reverse ++ path.map (escape escapedInPath) ∧
        ∀ segment ∈ path, IsKept segment ∧ ¬ Text.HasEscape segment) ∨
      weight (follow kind done path) < weight done + span path
  | [], done => .inl ⟨(List.append_nil _).symm, List.forall_mem_nil _⟩
  | segment :: rest, done => by
    have hspan : span (segment :: rest) = extent segment + 1 + span rest := rfl
    -- what is added by the rest, whatever has been done before it
    have hrest (done : List String) :
        weight (follow kind done rest) ≤ weight done + span rest := by
      rcases follow_or_weight_lt hkind rest done with ⟨heq, hkept⟩ | hlt
      · rw [heq, weight_append, weight_reverse, weight_map_escape fun x hx => (hkept x hx).2]
      · exact Nat.le_of_lt hlt
    -- a segment that is followed adds no more than an empty one
    have hfollowed (done' : List String) (hdone : weight done' ≤ weight done)
        (hsegment : segment ≠ []) :
        weight (follow kind (if rest.isEmpty then "" :: done' else done') rest) <
          weight done + span (segment :: rest) := by
      have hempty : weight ("" :: done') = 1 + weight done' := rfl
      have hone := one_le_extent hsegment
      refine Nat.lt_of_le_of_lt (hrest _) ?_
      split <;> omega
    have hne (hstops : plainStops segment ≠ []) : segment ≠ [] := by
      rintro rfl
      exact hstops rfl
    rw [follow_cons hkind]
    split
    · next hstops =>
      exact .inr (hfollowed _ (weight_tail_le done) (hne (hstops ▸ List.cons_ne_nil _ _)))
    split
    · next hstop =>
      exact .inr (hfollowed _ (Nat.le_refl _) (hne (hstop ▸ List.cons_ne_nil _ _)))
    · next htwo hone =>
      rcases percentDecode_escape segment with ⟨hnone, hread⟩ | ⟨-, hlt⟩
      · rcases follow_or_weight_lt hkind rest (escape escapedInPath segment :: done) with
          ⟨heq, hkept⟩ | hlt
        · refine .inl ⟨?_, List.forall_mem_cons.2 ⟨⟨⟨hone, htwo⟩, hnone⟩, hkept⟩⟩
          rw [heq, List.reverse_cons, List.append_assoc, List.singleton_append, List.map_cons]
        · right
          rw [weight, hread] at hlt
          rw [hspan]
          change _ < _ + (List.length _ + 1 + _)
          omega
      · right
        refine Nat.lt_of_le_of_lt (hrest _) ?_
        rw [weight, hspan]
        omega

end

/-! ## The parts of a text -/

section

variable {p : Char → Bool} {c : Char} {text text' : List Char}

theorem parts_cons (hc : p c = true) (text : List Char) :
    Text.parts p (c :: text) = [] :: Text.parts p text := by
  rw [Text.parts, if_pos hc]

theorem exists_parts_cons (hc : p c = false) (text : List Char) :
    ∃ part others, Text.parts p text = part :: others ∧
      Text.parts p (c :: text) = (c :: part) :: others := by
  obtain ⟨part, others, heq⟩ := List.exists_cons_of_ne_nil (Text.parts_ne_nil p text)
  refine ⟨part, others, heq, ?_⟩
  rw [Text.parts, hc, heq]
  rfl

/-- A text that is cut nowhere is its only part. -/
theorem parts_of_forall : ∀ {text : List Char}, (∀ c ∈ text, p c = false) →
    Text.parts p text = [text]
  | [], _ => rfl
  | c :: text, h => by
    obtain ⟨hc, htext⟩ := List.forall_mem_cons.1 h
    obtain ⟨part, others, heq, hcons⟩ := exists_parts_cons hc text
    obtain ⟨rfl, rfl⟩ := List.cons.inj (heq.symm.trans (parts_of_forall htext))
    exact hcons

/-- A text with one part is cut nowhere. -/
theorem forall_of_length_parts : ∀ {text : List Char}, (Text.parts p text).length = 1 →
    ∀ c ∈ text, p c = false
  | [], _ => List.forall_mem_nil _
  | c :: text, h => by
    cases hc : p c with
    | true =>
      rw [parts_cons hc, List.length_cons] at h
      exact absurd (List.length_eq_zero_iff.1 (Nat.succ.inj h)) (Text.parts_ne_nil p text)
    | false =>
      obtain ⟨part, others, heq, hcons⟩ := exists_parts_cons hc text
      rw [hcons, List.length_cons] at h
      refine List.forall_mem_cons.2 ⟨hc, forall_of_length_parts ?_⟩
      rw [heq, List.length_cons, h]

/-- Where a text is cut, its parts are those before and those after. -/
theorem parts_append (hc : p c = true) (text' : List Char) : ∀ text : List Char,
    Text.parts p (text ++ c :: text') = Text.parts p text ++ Text.parts p text'
  | [] => parts_cons hc text'
  | d :: text => by
    have hrest := parts_append hc text' text
    rw [List.cons_append]
    cases hd : p d with
    | true => rw [parts_cons hd, parts_cons hd, hrest, List.cons_append]
    | false =>
      obtain ⟨part, others, heq, hcons⟩ := exists_parts_cons hd text
      obtain ⟨part', others', heq', hcons'⟩ := exists_parts_cons hd (text ++ c :: text')
      rw [hrest, heq, List.cons_append] at heq'
      obtain ⟨rfl, rfl⟩ := List.cons.inj heq'
      rw [hcons, hcons', List.cons_append]

end

/-- Texts with a slash before each. -/
def slashed (texts : List (List Char)) : List Char := texts.flatMap ('/' :: ·)

section

variable {text : List Char} {texts : List (List Char)}

theorem slashed_cons (text : List Char) (texts : List (List Char)) :
    slashed (text :: texts) = '/' :: (text ++ slashed texts) := List.flatMap_cons

/-- Texts with slashes between them have the parts of each. -/
theorem parts_slashed (special : Bool) : ∀ (texts : List (List Char)) (text : List Char),
    Text.parts (isSlash special) (text ++ slashed texts) =
      (text :: texts).flatMap (Text.parts (isSlash special))
  | [], text => by simp [slashed]
  | text' :: texts, text => by
    rw [slashed_cons, parts_append (by simp [isSlash]), parts_slashed special texts text',
      ← List.flatMap_cons]

theorem length_le_length_flatMap_parts (p : Char → Bool) : ∀ texts : List (List Char),
    texts.length ≤ (texts.flatMap (Text.parts p)).length
  | [] => Nat.le_refl _
  | text :: texts => by
    have hrest := length_le_length_flatMap_parts p texts
    have hone := List.length_pos_iff.2 (Text.parts_ne_nil p text)
    rw [List.flatMap_cons, List.length_append, List.length_cons]
    omega

/-- If there are as many parts as texts, no text is cut. -/
theorem forall_of_length_flatMap_parts {p : Char → Bool} : ∀ {texts : List (List Char)},
    (texts.flatMap (Text.parts p)).length = texts.length →
      ∀ text ∈ texts, ∀ c ∈ text, p c = false
  | [], _ => List.forall_mem_nil _
  | text :: texts, h => by
    have hrest := length_le_length_flatMap_parts p texts
    have hone := List.length_pos_iff.2 (Text.parts_ne_nil p text)
    rw [List.flatMap_cons, List.length_append, List.length_cons] at h
    exact List.forall_mem_cons.2 ⟨forall_of_length_parts (by omega),
      forall_of_length_flatMap_parts (by omega)⟩

/-- A slash is one octet. -/
theorem octets_of_isSlash {special : Bool} {c : Char} (hc : isSlash special c = true) :
    (Text.octets c).length = 1 := by
  rw [isSlash, Bool.or_eq_true, Bool.and_eq_true, decide_eq_true_iff, decide_eq_true_iff] at hc
  rcases hc with rfl | ⟨-, rfl⟩ <;> rfl

/-- Parts take what the text takes, and one octet for each slash between them. -/
theorem span_parts (special : Bool) : ∀ text : List Char,
    span (Text.parts (isSlash special) text) = extent text + 1
  | [] => rfl
  | c :: text => by
    have hrest := span_parts special text
    rw [extent_cons]
    cases hc : isSlash special c with
    | true =>
      rw [parts_cons hc, span, hrest, octets_of_isSlash hc]
      change 0 + 1 + _ = _
      omega
    | false =>
      obtain ⟨part, others, heq, hcons⟩ := exists_parts_cons hc text
      rw [heq, span] at hrest
      rw [hcons, span, extent_cons]
      omega

/-- Texts take what they do with a slash before each. -/
theorem extent_slashed : ∀ texts : List (List Char), extent (slashed texts) = span texts
  | [] => rfl
  | text :: texts => by
    rw [slashed_cons, extent_cons, span, ← extent_slashed texts, extent, List.flatMap_append,
      List.length_append, ← extent, ← extent]
    change 1 + _ = _
    omega

end

/-! ## What counts of a text -/

/-- A text without the blanks at its end. -/
def trimEnd (text : List Char) : List Char :=
  (text.reverse.dropWhile fun c => c.toNat ≤ 0x20).reverse

/-- What counts of a text at the end of a URL. -/
def inner (text : List Char) : List Char :=
  (trimEnd text).filter fun c => c ≠ '\t' ∧ c ≠ '\n' ∧ c ≠ '\r'

/-- The path in a text at the end of a URL. -/
def pathText (text : List Char) : List Char := (inner text).takeWhile fun c => !endsPath c

section

variable {text text' : List Char} {c : Char}

theorem dropWhile_append_cons {p : Char → Bool} (hc : p c = false) (rest : List Char) :
    ∀ text : List Char, (text ++ c :: rest).dropWhile p = text.dropWhile p ++ c :: rest
  | [] => List.dropWhile_cons_of_neg (by rw [hc]; exact Bool.false_ne_true)
  | d :: text => by
    rw [List.cons_append, List.dropWhile_cons, List.dropWhile_cons]
    split
    · exact dropWhile_append_cons hc rest text
    · rfl

/-- Of a text that goes on after a visible character only what comes after it is cut. -/
theorem trimEnd_append (hc : 0x20 < c.toNat) (first text : List Char) :
    trimEnd (first ++ c :: text) = first ++ c :: trimEnd text := by
  have houter : decide (c.toNat ≤ 0x20) = false := decide_eq_false (Nat.not_le.2 hc)
  rw [trimEnd, List.reverse_append, List.reverse_cons, List.append_assoc, List.singleton_append,
    dropWhile_append_cons houter, List.reverse_append, List.reverse_cons, List.reverse_reverse,
    List.append_assoc, List.singleton_append, trimEnd]

theorem trimEnd_sublist (text : List Char) : (trimEnd text).Sublist text := by
  rw [trimEnd, ← List.reverse_sublist, List.reverse_reverse]
  exact List.dropWhile_sublist _

/-- Nothing is cut of a text that ends visibly, if it does not end at once. -/
theorem trimEnd_eq_self_iff :
    trimEnd text = text ↔ ∀ c, text.getLast? = some c → 0x20 < c.toNat := by
  rcases List.eq_nil_or_concat text with rfl | ⟨first, c, rfl⟩
  · exact iff_of_true rfl nofun
  rw [List.concat_eq_append, List.getLast?_concat]
  constructor
  · rintro heq d ⟨⟩
    refine Nat.lt_of_not_le fun hblank => ?_
    have hcut : trimEnd (first ++ [c]) = trimEnd first := by
      rw [trimEnd, List.reverse_append]
      exact congrArg List.reverse (List.dropWhile_cons_of_pos (decide_eq_true hblank))
    have hle := (trimEnd_sublist first).length_le
    rw [← hcut, heq, List.length_append, List.length_singleton] at hle
    omega
  · exact fun h => trimEnd_append (h c rfl) first []

theorem inner_sublist (text : List Char) : (inner text).Sublist text :=
  List.filter_sublist.trans (trimEnd_sublist text)

theorem pathText_sublist (text : List Char) : (pathText text).Sublist text :=
  (List.takeWhile_sublist _).trans (inner_sublist text)

/-- What comes before a text counts as it does alone, if it ends visibly. -/
theorem inner_append (hc : 0x20 < c.toNat) (first text : List Char) :
    inner (first ++ c :: text) = inner (first ++ [c]) ++ inner text := by
  rw [inner, trimEnd_append hc, inner, trimEnd_append hc, inner, ← List.filter_append,
    List.append_assoc]
  rfl

/-- A slash counts, and does not end a path. -/
theorem pathText_slash (text : List Char) : pathText ('/' :: text) = '/' :: pathText text := by
  have hinner : inner ('/' :: text) = '/' :: inner text := inner_append (by decide) [] text
  rw [pathText, hinner]
  exact List.takeWhile_cons_of_pos rfl

/-- A text that is its own path: all of it counts, nothing in it ends a path, and it ends
visibly. -/
theorem pathText_eq_self_iff : pathText text = text ↔
    (∀ c ∈ text, endsPath c = false ∧ c ≠ '\t' ∧ c ≠ '\n' ∧ c ≠ '\r') ∧
      ∀ c, text.getLast? = some c → 0x20 < c.toNat := by
  rw [← trimEnd_eq_self_iff]
  have hcut : (pathText text).Sublist (inner text) := List.takeWhile_sublist _
  have hfilter : (inner text).Sublist (trimEnd text) := List.filter_sublist
  constructor
  · intro h
    rw [h] at hcut
    have hinner : inner text = text := (inner_sublist text).eq_of_length_le hcut.length_le
    rw [hinner] at hfilter
    refine ⟨fun c hc => ⟨?_, ?_⟩, (trimEnd_sublist text).eq_of_length_le hfilter.length_le⟩
    · have hpath : c ∈ pathText text := h.symm ▸ hc
      simpa using List.mem_takeWhile_imp hpath
    · have hcounts : c ∈ inner text := hinner.symm ▸ hc
      exact of_decide_eq_true (List.mem_filter.1 hcounts).2
  · rintro ⟨hall, htrim⟩
    have hinner : inner text = text := by
      rw [inner, htrim]
      exact List.filter_eq_self.2 fun c hc => decide_eq_true (hall c hc).2
    rw [pathText, hinner]
    exact List.takeWhile_eq_self_iff.2 fun c hc => by rw [(hall c hc).1]; rfl

/-- Nothing comes after a text that is its own path. -/
theorem dropWhile_inner_eq_nil (h : pathText text = text) :
    (inner text).dropWhile (fun c => !endsPath c) = [] := by
  have hlength := congrArg List.length
    (List.takeWhile_append_dropWhile (p := fun c => !endsPath c) (l := inner text))
  have hle := (inner_sublist text).length_le
  rw [List.length_append, ← pathText, h] at hlength
  exact List.length_eq_zero_iff.1 (by omega)

/-- A text that takes no more than another in which it is found is the other. -/
theorem eq_of_extent_le (h : text.Sublist text') (hle : extent text' ≤ extent text) :
    text = text' := by
  have hmono : ∀ {text text' : List Char}, text.Sublist text' → extent text ≤ extent text' :=
    fun h => (h.flatMap Text.octets).length_le
  induction h with
  | slnil => rfl
  | @cons text text' c h _ =>
    have hc := Text.one_le_length_octets c
    have hrest := hmono h
    rw [extent_cons] at hle
    omega
  | @cons_cons text text' c h ih =>
    rw [extent_cons, extent_cons] at hle
    rw [ih (by omega)]

end

/-! ## Texts as segments -/

/-- The text is kept as one segment, and read as it is: no slash, nothing that ends the path or does
not count, no `.` or `..`, no escape. -/
structure IsPlain (text : List Char) : Prop where
  slash : ∀ c ∈ text, isSlash true c = false
  ends : ∀ c ∈ text, endsPath c = false
  counts : ∀ c ∈ text, c ≠ '\t' ∧ c ≠ '\n' ∧ c ≠ '\r'
  kept : IsKept text
  unescaped : ¬ Text.HasEscape text

/-- The last of the texts does not end in a blank. -/
def EndsVisibly (texts : List (List Char)) : Prop :=
  ∀ text c, texts.getLast? = some text → text.getLast? = some c → 0x20 < c.toNat

/-- The segment stands for the octets of the text. -/
def StandsFor (text : List Char) (segment : String) : Prop :=
  Text.percentDecode segment.toList = text.flatMap Text.octets

section

variable {text : List Char} {texts : List (List Char)}

theorem mem_slashed {c : Char} (htext : text ∈ texts) (hc : c ∈ text) : c ∈ slashed texts :=
  List.mem_flatMap.2 ⟨text, htext, .tail _ hc⟩

/-- A character of slashed texts is a slash or one of theirs. -/
theorem of_mem_slashed {c : Char} (hc : c ∈ slashed texts) :
    c = '/' ∨ ∃ text ∈ texts, c ∈ text := by
  obtain ⟨text, htext, hc⟩ := List.mem_flatMap.1 hc
  exact (List.mem_cons.1 hc).imp_right fun hc => ⟨text, htext, hc⟩

/-- Slashed texts end as the last of them does, or in a slash. -/
theorem endsVisibly_iff (texts : List (List Char)) :
    EndsVisibly texts ↔ ∀ c, (slashed texts).getLast? = some c → 0x20 < c.toNat := by
  rcases List.eq_nil_or_concat texts with rfl | ⟨first, last, rfl⟩
  · exact iff_of_true nofun nofun
  have hend : slashed (first.concat last) = slashed first ++ '/' :: last := by
    rw [List.concat_eq_append, slashed, List.flatMap_append, List.flatMap_singleton, slashed]
  rw [hend, List.getLast?_append_cons, EndsVisibly, List.concat_eq_append, List.getLast?_concat]
  constructor
  · intro h c hc
    rcases List.eq_nil_or_concat last with rfl | ⟨start, d, rfl⟩
    · cases hc
      decide
    · rw [List.concat_eq_append] at h hc
      rw [← List.cons_append, List.getLast?_concat] at hc
      exact h _ c rfl (List.getLast?_concat.trans hc)
  · rintro h _ c ⟨⟩ hc
    refine h c ?_
    rw [List.getLast?_cons, hc, Option.getD_some]

/-- Slashed texts are their own path if nothing in them ends a path or does not count, and the last
of them ends visibly. -/
theorem pathText_slashed_iff : pathText (slashed texts) = slashed texts ↔
    (∀ text ∈ texts, ∀ c ∈ text, endsPath c = false ∧ c ≠ '\t' ∧ c ≠ '\n' ∧ c ≠ '\r') ∧
      EndsVisibly texts := by
  rw [pathText_eq_self_iff, endsVisibly_iff]
  refine and_congr_left fun _ => ⟨fun h text htext c hc => h c (mem_slashed htext hc), ?_⟩
  intro h c hc
  rcases of_mem_slashed hc with rfl | ⟨text, htext, hc⟩
  · exact ⟨rfl, by decide⟩
  · exact h text htext c hc

/-- What a segment stands for is one text only. -/
theorem StandsFor.unique {text' : List Char} {name : String} (h : StandsFor text name)
    (h' : StandsFor text' name) : text = text' :=
  Text.flatMap_octets_inj.1 (h.symm.trans h')

/-- A plain text with its escapes stands for the text. -/
theorem IsPlain.standsFor (h : IsPlain text) :
    StandsFor text (escape escapedInPath text) :=
  ((percentDecode_escape text).resolve_right fun hescape => h.unescaped hescape.1).2

/-- Segments that stand for texts weigh what the texts take. -/
theorem weight_of_standsFor {names : List String} (h : List.Forall₂ StandsFor texts names) :
    weight names = span texts := by
  induction h with
  | nil => rfl
  | cons hname _ ih => rw [weight, span, ih, hname, extent]

/-- Texts without slashes are the parts of what they make with slashes between them. -/
theorem parts_of_plain (htexts : ∀ x ∈ text :: texts, ∀ c ∈ x, isSlash true c = false) :
    Text.parts (isSlash true) (text ++ slashed texts) = text :: texts := by
  have hparts : ∀ x ∈ text :: texts, Text.parts (isSlash true) x = [x] :=
    fun x hx => parts_of_forall (htexts x hx)
  rw [parts_slashed, List.flatMap_congr hparts, List.flatMap_singleton']

/-- Segments that are kept are added with their escapes. -/
theorem follow_of_forall {kind : SchemeKind} (hkind : kind ≠ .file) (done : List String) :
    ∀ {path : List (List Char)}, (∀ x ∈ path, IsKept x) →
      follow kind done path = done.reverse ++ path.map (escape escapedInPath)
  | [], _ => (List.append_nil _).symm
  | segment :: rest, h => by
    obtain ⟨⟨hone, htwo⟩, hrest⟩ := List.forall_mem_cons.1 h
    rw [follow_cons hkind, if_neg htwo, if_neg hone, follow_of_forall hkind _ hrest,
      List.reverse_cons, List.append_assoc, List.map_cons, List.singleton_append]

/-- Texts with slashes between them are their own path if they are with one before each. -/
theorem pathText_append_slashed_iff : pathText (text ++ slashed texts) = text ++ slashed texts ↔
    (∀ x ∈ text :: texts, ∀ c ∈ x, endsPath c = false ∧ c ≠ '\t' ∧ c ≠ '\n' ∧ c ≠ '\r') ∧
      EndsVisibly (text :: texts) := by
  rw [← pathText_slashed_iff, slashed_cons, pathText_slash, List.cons.injEq]
  exact (and_iff_right rfl).symm

/-- Plain texts with slashes between them are their own path. -/
theorem pathText_of_plain (hplain : ∀ x ∈ text :: texts, IsPlain x)
    (hends : EndsVisibly (text :: texts)) :
    pathText (text ++ slashed texts) = text ++ slashed texts :=
  pathText_append_slashed_iff.2
    ⟨fun x hx c hc => ⟨(hplain x hx).ends c hc, (hplain x hx).counts c hc⟩, hends⟩

/-- Plain texts are followed to the texts with their escapes. -/
theorem follow_of_plain {kind : SchemeKind} (hkind : kind ≠ .file) (done : List String)
    (hplain : ∀ x ∈ text :: texts, IsPlain x) (hends : EndsVisibly (text :: texts)) :
    follow kind done (Text.parts (isSlash true) (pathText (text ++ slashed texts))) =
      done.reverse ++ (text :: texts).map (escape escapedInPath) := by
  rw [pathText_of_plain hplain hends, parts_of_plain fun x hx => (hplain x hx).slash]
  exact follow_of_forall hkind done fun x hx => (hplain x hx).kept

/-- Following slashed texts adds segments that stand for them exactly if they are plain and the last
of them ends visibly. -/
theorem follow_standsFor_iff {kind : SchemeKind} (hkind : kind ≠ .file) (done : List String) :
    (∃ names, follow kind done (Text.parts (isSlash true) (pathText (text ++ slashed texts))) =
        done.reverse ++ names ∧ List.Forall₂ StandsFor (text :: texts) names) ↔
      (∀ x ∈ text :: texts, IsPlain x) ∧ EndsVisibly (text :: texts) := by
  constructor
  · rintro ⟨names, hfollow, hnames⟩
    have hweight := weight_of_standsFor hnames
    have htaken : span (text :: texts) = extent (text ++ slashed texts) + 1 := by
      have hslashed := extent_slashed (text :: texts)
      rw [slashed_cons, extent_cons] at hslashed
      rw [← hslashed, Nat.add_comm]
      rfl
    have hleft := span_parts true (pathText (text ++ slashed texts))
    have hsublist := pathText_sublist (text ++ slashed texts)
    have hle : extent (pathText (text ++ slashed texts)) ≤ extent (text ++ slashed texts) :=
      (hsublist.flatMap Text.octets).length_le
    rcases follow_or_weight_lt hkind (Text.parts (isSlash true) (pathText (text ++ slashed texts)))
        done with ⟨heq, hkept⟩ | hlt
    · -- all the text has been read, and each of its parts stands for one of the texts
      have hmap := List.append_cancel_left (heq.symm.trans hfollow)
      have hread := weight_map_escape fun x hx => (hkept x hx).2
      rw [hmap, hweight, htaken, hleft] at hread
      have hpath := eq_of_extent_le hsublist (by omega)
      obtain ⟨hall, hends⟩ := pathText_append_slashed_iff.1 hpath
      rw [hpath] at hmap hkept
      have hlength := congrArg List.length hmap
      rw [List.length_map, parts_slashed, ← hnames.length_eq] at hlength
      have hslash := forall_of_length_flatMap_parts hlength
      rw [parts_of_plain hslash] at hkept
      exact ⟨fun x hx => ⟨hslash x hx, fun c hc => (hall x hx c hc).1,
        fun c hc => (hall x hx c hc).2, (hkept x hx).1, (hkept x hx).2⟩, hends⟩
    · rw [hfollow, weight_append, weight_reverse, hweight] at hlt
      omega
  · rintro ⟨hplain, hends⟩
    refine ⟨_, follow_of_plain hkind done hplain hends, ?_⟩
    rw [List.forall₂_map_right_iff, List.forall₂_same]
    exact fun x hx => (hplain x hx).standsFor

end

end Url

end TraceWatch
