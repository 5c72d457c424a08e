import Mathlib.Data.List.DropRight
import TraceWatch.Proofs.Url.Extension

/-!
# Going on after the text of any URL

Without the slashes at its end, the text of a URL of a network may end in a blank, in a query or
anywhere else, and then goes on after a slash. What counts of it is what counts of the text alone,
up to blanks or slashes at the end (`Url.IsNearly`). So what comes after the slash goes into a
query, a fragment or a path, and which of them does not depend on what it is
(`Url.parse_slash_cases`).
-/

namespace TraceWatch.Url

/-! ## What counts -/

/-- The text without the slashes at its end. -/
def withoutSlashes (text : List Char) : List Char := text.rdropWhile (· = '/')

theorem exists_slashes (text : List Char) :
    ∃ slashes, text = withoutSlashes text ++ slashes ∧ ∀ c ∈ slashes, c = '/' :=
  ⟨_, List.rdropWhile_append_rtakeWhile.symm, fun _ hc => by
    simpa using List.mem_rtakeWhile_imp hc⟩

theorem withoutSlashes_concat_slash (text : List Char) :
    withoutSlashes (text ++ ['/']) = withoutSlashes text := List.rdropWhile_concat_pos _ _ _ rfl

theorem withoutSlashes_eq_self_iff {text : List Char} :
    withoutSlashes text = text ↔ text.getLast? ≠ some '/' := by
  refine List.rdropWhile_eq_self_iff.trans ?_
  cases text with
  | nil => simp
  | cons c rest => simp [List.getLast?_eq_some_getLast]

/-- A text is not what it is without the slashes at its end and something else than slashes. -/
theorem ne_withoutSlashes_append {text more : List Char} {c : Char} (hmem : c ∈ more)
    (hc : c ≠ '/') : text ≠ withoutSlashes text ++ more := by
  intro h
  obtain ⟨slashes, htext, hslashes⟩ := exists_slashes text
  have hmore : more = slashes := List.append_cancel_left (h.symm.trans htext)
  exact hc (hslashes c (hmore ▸ hmem))

theorem exists_blanks (text : List Char) :
    ∃ blanks, text = trimEnd text ++ blanks ∧ ∀ c ∈ blanks, c.toNat ≤ 0x20 :=
  ⟨_, List.rdropWhile_append_rtakeWhile.symm, fun _ hc => by
    simpa using List.mem_rtakeWhile_imp hc⟩

/-- What counts of a text that others come after. -/
def opening (text : List Char) : List Char :=
  (text.dropWhile fun c => c.toNat ≤ 0x20).filter fun c => c ≠ '\t' ∧ c ≠ '\n' ∧ c ≠ '\r'

/-- The first text is the second one but for blanks at its end, or for slashes that the second one
has there. -/
inductive IsNearly : List Char → List Char → Prop
  | blanks {text more : List Char} : (∀ c ∈ more, c.toNat ≤ 0x20) → IsNearly (text ++ more) text
  | slashes {text more : List Char} : (∀ c ∈ more, c = '/') → IsNearly text (text ++ more)

theorem inner_concat_slash (text : List Char) :
    inner (text ++ ['/']) = text.filter (fun c => c ≠ '\t' ∧ c ≠ '\n' ∧ c ≠ '\r') ++ ['/'] := by
  rw [inner, trimEnd_append (by decide), List.filter_append]
  rfl

theorem significant_ofList (text : List Char) : significant (String.ofList text) =
    inner (text.dropWhile fun c => decide (c.toNat ≤ 0x20)) := by
  rw [significant, String.toList_ofList]
  rfl

/-- What counts of a text stays the same where the text goes on after a slash. -/
theorem significant_slash (text more : List Char) :
    significant (String.ofList (text ++ '/' :: more)) = opening text ++ '/' :: inner more := by
  rw [significant_ofList, dropWhile_append_cons (by decide), inner_append (by decide),
    inner_concat_slash, List.append_assoc]
  rfl

/-- What counts of a text alone is nearly what counts of it before others. -/
theorem isNearly_opening (text : List Char) {slashes : List Char}
    (hslashes : ∀ c ∈ slashes, c = '/') :
    IsNearly (opening text) (significant (String.ofList (text ++ slashes))) := by
  cases slashes with
  | nil =>
    obtain ⟨blanks, htext, hblanks⟩ := exists_blanks (text.dropWhile fun c => c.toNat ≤ 0x20)
    rw [List.append_nil, significant_ofList, opening, htext, List.filter_append, ← htext]
    exact .blanks fun c hc => hblanks c (List.mem_filter.1 hc).1
  | cons c slashes =>
    obtain ⟨rfl, hmore⟩ := List.forall_mem_cons.1 hslashes
    rw [significant_slash]
    refine .slashes (List.forall_mem_cons.2 ⟨rfl, fun c hc => hmore c ?_⟩)
    exact (inner_sublist slashes).subset hc

namespace IsNearly

theorem refl (text : List Char) : IsNearly text text := by
  have hslashes : IsNearly text (text ++ []) := .slashes (List.forall_mem_nil _)
  rwa [List.append_nil] at hslashes

variable {text own : List Char} (h : IsNearly text own)

include h

/-- Both have the same scheme. -/
theorem scheme?_eq {scheme : String} {rest : List Char} (hown : scheme? own = some (scheme, rest)) :
    ∃ rest', scheme? text = some (scheme, rest') ∧ IsNearly rest' rest := by
  cases h with
  | @blanks _ more hmore => exact ⟨rest ++ more, (scheme?_append hown more).2, .blanks hmore⟩
  | @slashes _ more hmore =>
    cases more with
    | nil =>
      rw [List.append_nil] at hown
      exact ⟨rest, hown, .refl rest⟩
    | cons c more =>
      obtain ⟨rfl, -⟩ := List.forall_mem_cons.1 hmore
      rw [scheme?_slash] at hown
      obtain ⟨⟨scheme', rest'⟩, hscheme, heq⟩ := Option.map_eq_some_iff.1 hown
      cases heq
      exact ⟨rest', hscheme, .slashes hmore⟩

/-- Behind the slashes at their beginning they are nearly the same, too. -/
theorem dropWhile (hown : own.dropWhile (isSlash true) ≠ []) :
    text.dropWhile (isSlash true) ≠ [] ∧
      IsNearly (text.dropWhile (isSlash true)) (own.dropWhile (isSlash true)) := by
  cases h with
  | @blanks _ more hmore =>
    rw [List.dropWhile_append, if_neg (by simpa using hown)]
    exact ⟨List.append_ne_nil_of_left_ne_nil hown _, .blanks hmore⟩
  | @slashes _ more hmore =>
    have hnone : more.dropWhile (isSlash true) = [] :=
      List.dropWhile_eq_nil_iff.2 fun c hc => by rw [hmore c hc]; rfl
    rw [List.dropWhile_append] at hown ⊢
    split at hown
    · exact absurd hnone hown
    · next hne =>
      rw [if_neg hne]
      exact ⟨by simpa using hne, .slashes hmore⟩

/-- A path, a query or a fragment ends in both at the same place. -/
theorem exists_eq_append {front back : List Char} {c : Char} (htext : text = front ++ c :: back)
    (hc : endsPath c = true) : ∃ back', own = front ++ c :: back' := by
  cases h with
  | @slashes _ more hmore => exact ⟨back ++ more, by rw [htext, List.append_assoc]; rfl⟩
  | @blanks _ more hmore =>
    have hnot : c ∉ more := fun hmem => by
      have hle := hmore c hmem
      rw [endsPath, Bool.or_eq_true, decide_eq_true_iff, decide_eq_true_iff] at hc
      rcases hc with rfl | rfl <;> exact absurd hle (by decide)
    rcases List.append_eq_append_iff.1 htext with ⟨between, rfl, hmore'⟩ | ⟨between, rfl, hmore'⟩
    · exact absurd (hmore' ▸ List.mem_append_right _ List.mem_cons_self) hnot
    · cases between with
      | nil =>
        rw [List.nil_append] at hmore'
        exact absurd (hmore' ▸ List.mem_cons_self) hnot
      | cons d between =>
        obtain ⟨rfl, -⟩ := List.cons.inj hmore'
        exact ⟨between, rfl⟩

theorem forall_endsPath (htext : ∀ c ∈ text, endsPath c = false) :
    ∀ c ∈ own, endsPath c = false := by
  cases h with
  | blanks => exact fun c hc => htext c (List.mem_append_left _ hc)
  | slashes hmore =>
    intro c hc
    rcases List.mem_append.1 hc with hc | hc
    · exact htext c hc
    · rw [hmore c hc]
      rfl

end IsNearly

/-! ## What comes after the slash -/

section

variable {port : Nat} {url : Url} {path : List Char}

/-- What comes after a host is segments. -/
theorem exists_segments_pathAfterHost (port : Nat) (path : List Char) :
    ∃ names, pathAfterHost (.network port) path = .segments names := by
  match path with
  | [] => exact ⟨[""], rfl⟩
  | c :: rest =>
    cases hc : isSlash true c with
    | true => exact ⟨_, (if_pos hc).trans (segments_network rest)⟩
    | false => exact ⟨_, (if_neg (hc ▸ Bool.false_ne_true)).trans (segments_network (c :: rest))⟩

/-- After a slash, a path goes on from what stands before it. -/
theorem exists_pathAfterHost (port : Nat) (path : List Char) : ∃ names, ∀ more,
    pathAfterHost (.network port) (path ++ '/' :: more) =
      .segments (follow (.network port) names (Text.parts (isSlash true) more)) := by
  match path with
  | [] => exact ⟨[], fun _ => rfl⟩
  | c :: rest =>
    cases hc : isSlash true c with
    | true => exact ⟨_, fun more => (if_pos hc).trans (segments_slash rest more)⟩
    | false =>
      exact ⟨_, fun more =>
        (if_neg (hc ▸ Bool.false_ne_true)).trans (segments_slash (c :: rest) more)⟩

/-- A text in which no path ends is a path. -/
theorem withPath_of_forall (hkind : SchemeKind.of url.scheme = .network port)
    (hpath : ∀ c ∈ path, endsPath c = false) : url.withPath path =
      { url with path := pathAfterHost (.network port) path, query := none, fragment := none } := by
  have hplain : ∀ c ∈ path, (!endsPath c) = true := fun c hc => by rw [hpath c hc]; rfl
  rw [withPath_of_network hkind, List.takeWhile_eq_self_iff.2 hplain,
    List.dropWhile_eq_nil_iff.2 hplain]
  rfl

/-- Where a path ends, a query or a fragment begins, and nothing of it belongs to the path. -/
theorem withPath_of_endsPath (hkind : SchemeKind.of url.scheme = .network port)
    (hpath : ∀ c ∈ path, endsPath c = false) {c : Char} (hc : endsPath c = true)
    (more : List Char) :
    (url.withPath (path ++ c :: more)).path = pathAfterHost (.network port) path ∧
      ((url.withPath (path ++ c :: more)).query ≠ none ∨
        (url.withPath (path ++ c :: more)).fragment ≠ none) := by
  have hplain : ∀ c ∈ path, (!endsPath c) = true := fun c hc => by rw [hpath c hc]; rfl
  have hend : (!endsPath c) = false := by rw [hc]; rfl
  rw [withPath_of_network hkind, takeWhile_append_cons hend, dropWhile_append_cons hend,
    List.takeWhile_eq_self_iff.2 hplain, List.dropWhile_eq_nil_iff.2 hplain, List.nil_append]
  rw [endsPath, Bool.or_eq_true, decide_eq_true_iff, decide_eq_true_iff] at hc
  refine ⟨rfl, hc.imp ?_ ?_⟩ <;> rintro rfl <;> exact Option.some_ne_none _

/-- A text in which a path ends has a first place where it does. -/
theorem exists_first_endsPath {text : List Char} (h : ¬ ∀ c ∈ text, endsPath c = false) :
    ∃ front c back, text = front ++ c :: back ∧ (∀ d ∈ front, endsPath d = false) ∧
      endsPath c = true := by
  cases hback : text.dropWhile fun c => !endsPath c with
  | nil => exact absurd (fun c hc => by simpa using List.dropWhile_eq_nil_iff.1 hback c hc) h
  | cons c back =>
    have hc := List.head?_dropWhile_not (fun c => !endsPath c) text
    rw [hback] at hc
    refine ⟨text.takeWhile fun c => !endsPath c, c, back, ?_, fun d hd => ?_, by simpa using hc⟩
    · rw [← hback, List.takeWhile_append_dropWhile]
    · simpa using List.mem_takeWhile_imp hd

end

/-- The URL with segments as its path and nothing after it. -/
def withSegments (url : Url) (names : List String) : Url :=
  { url with path := .segments names, query := none, fragment := none }

/-- Without the slashes at its end, the text of a URL of a network goes on after a slash in one of
two ways, whatever comes after the slash. Either what comes there belongs to a query, or to a
fragment that leaves the path as it is, unless none of it is a URL. Or the URL has no query and no
fragment, and the path goes on from segments that are known. -/
theorem parse_slash_cases {text : String} {base : Url} {port : Nat} (h : parse text = .ok base)
    (hkind : SchemeKind.of base.scheme = .network port) :
    (∀ more url, parse (String.ofList (withoutSlashes text.toList ++ '/' :: more)) = .ok url →
      url.query ≠ none ∨ url.fragment ≠ none ∧ url.path = base.path) ∨
    base.query = none ∧ base.fragment = none ∧ ∃ (url : Url) (names : List String),
      ∀ more, (∀ c ∈ inner more, endsPath c = false) →
        parse (String.ofList (withoutSlashes text.toList ++ '/' :: more)) =
          .ok (url.withSegments
            (follow (.network port) names (Text.parts (isSlash true) (inner more)))) := by
  have hspecial : (SchemeKind.of base.scheme).isSpecial = true := by rw [hkind]; rfl
  obtain ⟨ownRest, hscheme, hbase⟩ := network_of_parse h hkind
  have hown : ownRest.dropWhile (isSlash true) ≠ [] := fun hnil => by
    rw [hnil, withAuthority_nil hspecial] at hbase
    cases hbase
  obtain ⟨slashes, htext, hslashes⟩ := exists_slashes text.toList
  have hnearly := isNearly_opening (withoutSlashes text.toList) hslashes
  rw [← htext, String.ofList_toList] at hnearly
  obtain ⟨rest, hscheme', hnearly⟩ := hnearly.scheme?_eq hscheme
  obtain ⟨hne, hnearly⟩ := hnearly.dropWhile hown
  have hparse (more : List Char) :
      parse (String.ofList (withoutSlashes text.toList ++ '/' :: more)) =
        withAuthority base.scheme (rest.dropWhile (isSlash true) ++ '/' :: inner more) := by
    have hmore := (scheme?_append hscheme' ('/' :: inner more)).2
    rw [← significant_slash] at hmore
    rw [parse_of_network hkind hmore, List.dropWhile_append, if_neg (by simpa using hne)]
  by_cases hpath : ∀ c ∈ rest.dropWhile (isSlash true), endsPath c = false
  · rcases withAuthority_cases hspecial (rest.dropWhile (isSlash true)) with
      hnone | ⟨url, path, hurl, hsuffix, hgoes⟩
    · exact .inl fun more url h =>
        absurd ((hparse more).symm.trans h) (hnone _ url (startsOutside_slash _ _))
    have hkind' : SchemeKind.of url.scheme = .network port := hurl ▸ hkind
    have hplain : ∀ c ∈ path, endsPath c = false := fun c hc => hpath c (hsuffix.subset hc)
    obtain ⟨-, ownPath, hownSuffix, hread, -⟩ := withAuthority_append hspecial hbase
    rw [withPath_of_forall hkind fun c hc =>
      hnearly.forall_endsPath hpath c (hownSuffix.subset hc)] at hread
    obtain ⟨names, hnames⟩ := exists_pathAfterHost port path
    refine .inr ⟨hread ▸ rfl, hread ▸ rfl, url, names, fun more hmore => ?_⟩
    have hall : ∀ c ∈ path ++ '/' :: inner more, endsPath c = false := by
      intro c hc
      rcases List.mem_append.1 hc with hc | hc
      · exact hplain c hc
      · rcases List.mem_cons.1 hc with rfl | hc
        · rfl
        · exact hmore c hc
    rw [hparse, hgoes _ (startsOutside_slash _ _), withPath_of_forall hkind' hall, hnames]
    rfl
  · left
    obtain ⟨front, c, back, heq, hfront, hc⟩ := exists_first_endsPath hpath
    obtain ⟨ownBack, hownEq⟩ := hnearly.exists_eq_append heq hc
    have houtside (more : List Char) : StartsOutside (.of base.scheme) (c :: more) := by
      rintro d ⟨⟩
      simp [isInside, endsAuthority, hc]
    rw [hownEq] at hbase
    rcases withAuthority_cases hspecial front with hnone | ⟨url', path, hurl, hsuffix, hgoes⟩
    · exact absurd hbase (hnone _ base (houtside _))
    have hkind' : SchemeKind.of url'.scheme = .network port := hurl ▸ hkind
    have hplain : ∀ d ∈ path, endsPath d = false := fun d hd => hfront d (hsuffix.subset hd)
    cases (hgoes _ (houtside ownBack)).symm.trans hbase
    intro more url hurl'
    rw [hparse, heq, List.append_assoc, List.cons_append, hgoes _ (houtside _)] at hurl'
    cases hurl'
    obtain ⟨hpath, hends⟩ := withPath_of_endsPath hkind' hplain hc (back ++ '/' :: inner more)
    refine hends.imp id fun hfragment => ⟨hfragment, hpath.trans ?_⟩
    exact (withPath_of_endsPath hkind' hplain hc ownBack).1.symm

end TraceWatch.Url
