import TraceWatch.Proofs.Text.Parts
import TraceWatch.Proofs.Url.Path

/-!
# Going on after a URL

Where the text of a URL of a network goes on after a slash, the URL goes on from the directory of
its path, and everything before the path stays as it is (`Url.parse_append`). That presupposes that
the text itself ends in a character that counts and is no slash: a blank at its end would become
part of the path.
-/

namespace TraceWatch.Url

theorem takeWhile_append_cons {p : Char → Bool} {c : Char} (hc : p c = false) (rest : List Char) :
    ∀ text : List Char, (text ++ c :: rest).takeWhile p = text.takeWhile p
  | [] => List.takeWhile_cons_of_neg (by rw [hc]; exact Bool.false_ne_true)
  | d :: text => by
    rw [List.cons_append, List.takeWhile_cons, List.takeWhile_cons,
      takeWhile_append_cons hc rest text]

section

variable {p : Char → Bool} {more : List Char} (hmore : ∀ c, more.head? = some c → p c = false)

include hmore

theorem takeWhile_append_of_head? (text : List Char) :
    (text ++ more).takeWhile p = text.takeWhile p := by
  cases more with
  | nil => rw [List.append_nil]
  | cons c rest => exact takeWhile_append_cons (hmore c rfl) rest text

theorem dropWhile_append_of_head? (text : List Char) :
    (text ++ more).dropWhile p = text.dropWhile p ++ more := by
  cases more with
  | nil => rw [List.append_nil, List.append_nil]
  | cons c rest => exact dropWhile_append_cons (hmore c rfl) rest text

end

/-! ## Before the path -/

section

variable {kind : SchemeKind} {text unread : List Char} {host : Host} {port : Option Nat}

theorem bind_eq_ok {α β : Type} {x : Except UrlError α} {f : α → Except UrlError β} {b : β} :
    (x >>= f) = .ok b ↔ ∃ a, x = .ok a ∧ f a = .ok b := by
  cases x with
  | error e => exact ⟨nofun, nofun⟩
  | ok a => exact ⟨fun h => ⟨a, rfl, h⟩, fun ⟨_, ha, h⟩ => by cases ha; exact h⟩

theorem portAfterHost_suffix (h : portAfterHost kind text = .ok (port, unread)) :
    unread <:+ text := by
  unfold portAfterHost at h
  split at h
  · split at h
    · cases h
    dsimp only at h
    split at h <;> cases h <;>
      exact (List.dropWhile_suffix _).trans (List.suffix_cons _ _)
  · cases h
    exact List.suffix_refl _

theorem hostAndPort_suffix (hkind : kind.isSpecial = true)
    (h : hostAndPort kind text = .ok (host, port, unread)) : unread <:+ text := by
  unfold hostAndPort at h
  dsimp only at h
  split at h
  · cases h
  rw [bind_eq_ok] at h
  obtain ⟨_, -, h⟩ := h
  rw [bind_eq_ok] at h
  obtain ⟨⟨_, _⟩, hport, h⟩ := h
  cases h
  exact (portAfterHost_suffix hport).trans (List.drop_suffix _ _)

/-- A special scheme needs a host. -/
theorem hostAndPort_nil (hkind : kind.isSpecial = true) :
    hostAndPort kind [] = .error .emptyHost := by
  unfold hostAndPort
  exact if_pos ⟨rfl, .inl hkind⟩

/-- The URL with the path, query and fragment that a text has. -/
def withPath (url : Url) (text : List Char) : Url :=
  let kind := SchemeKind.of url.scheme
  let rest := text.dropWhile fun c => !endsPath c
  { url with
    path := pathAfterHost kind (text.takeWhile fun c => !endsPath c)
    query := (queryAndFragment kind.isSpecial rest).1
    fragment := (queryAndFragment kind.isSpecial rest).2 }

/-- Who an authority names, and the text of its host. -/
def userAndHost (authority path : List Char) : Except UrlError (Option UserInfo × List Char) :=
  match Text.atLast? '@' authority with
  | none => .ok (none, authority)
  | some (before, after) =>
    if before.isEmpty ∧ after.isEmpty ∧ !path.isEmpty then .error .emptyHost
    else .ok (userInfo before, after)

/-- The URL with a host and a port, and with what comes after them. -/
def ofHost (scheme : String) (user : Option UserInfo) (path : List Char)
    (named : Host × Option Nat × List Char) : Except UrlError Url :=
  if named.1 = .name "" ∧ user.isSome = true then .error .emptyHost
  else .ok (withPath ⟨scheme, user, some named.1, named.2.1, .segments [], none, none⟩
    (named.2.2 ++ path))

/-- Whether a character stands before the path. -/
def isInside (kind : SchemeKind) (c : Char) : Bool := !endsAuthority kind.isSpecial c

theorem withAuthority_eq (scheme : String) (rest : List Char) :
    withAuthority scheme rest =
      userAndHost (rest.takeWhile (isInside (.of scheme)))
          (rest.dropWhile (isInside (.of scheme))) >>= fun row =>
        hostAndPort (.of scheme) row.2 >>=
          ofHost scheme row.1 (rest.dropWhile (isInside (.of scheme))) := by
  unfold withAuthority userAndHost ofHost isInside withPath
  dsimp only
  cases Text.atLast? '@'
      (rest.takeWhile fun c => !endsAuthority (SchemeKind.of scheme).isSpecial c) with
  | none =>
    refine congrArg (hostAndPort (.of scheme) _ >>= ·) (funext fun named => ?_)
    dsimp only
    split <;> rfl
  | some cut =>
    dsimp only
    split
    · rfl
    · refine congrArg (hostAndPort (.of scheme) _ >>= ·) (funext fun named => ?_)
      dsimp only
      split <;> rfl

theorem userAndHost_suffix {authority path hostText : List Char} {user : Option UserInfo}
    (h : userAndHost authority path = .ok (user, hostText)) : hostText <:+ authority := by
  unfold userAndHost at h
  split at h
  · cases h
    exact List.suffix_refl _
  · next hcut =>
    split at h
    · cases h
    · cases h
      exact Text.atLast?_suffix hcut

/-- An authority with the text of a host in it is read alike before any path. -/
theorem userAndHost_path {authority path hostText : List Char} {user : Option UserInfo}
    (hhost : hostText ≠ []) (h : userAndHost authority path = .ok (user, hostText))
    (path' : List Char) : userAndHost authority path' = .ok (user, hostText) := by
  unfold userAndHost at h ⊢
  split at h
  · exact h
  · split at h
    · cases h
    · cases h
      exact if_neg fun hempty => hhost (List.isEmpty_iff.1 hempty.2.1)

/-- The text does not start with a character of what stands before a path. -/
def StartsOutside (kind : SchemeKind) (more : List Char) : Prop :=
  ∀ c, more.head? = some c → isInside kind c = false

/-- What stands before a path is read alike whatever comes after it, so that none of the texts that
go on after it is a URL, or all are, and differ only in what comes after the host. -/
theorem withAuthority_cases {scheme : String}
    (hspecial : (SchemeKind.of scheme).isSpecial = true) (rest : List Char) :
    (∀ more url, StartsOutside (.of scheme) more → withAuthority scheme (rest ++ more) ≠ .ok url) ∨
      ∃ (url : Url) (path : List Char), url.scheme = scheme ∧ path <:+ rest ∧
        ∀ more, StartsOutside (.of scheme) more →
          withAuthority scheme (rest ++ more) = .ok (url.withPath (path ++ more)) := by
  have hread (more : List Char) (hmore : StartsOutside (.of scheme) more) :
      withAuthority scheme (rest ++ more) =
        userAndHost (rest.takeWhile (isInside (.of scheme)))
            (rest.dropWhile (isInside (.of scheme)) ++ more) >>= fun row =>
          hostAndPort (.of scheme) row.2 >>=
            ofHost scheme row.1 (rest.dropWhile (isInside (.of scheme)) ++ more) := by
    rw [withAuthority_eq, takeWhile_append_of_head? hmore, dropWhile_append_of_head? hmore]
  by_cases hread' : ∃ user hostText host port unread, hostText ≠ [] ∧
      userAndHost (rest.takeWhile (isInside (.of scheme))) [] = .ok (user, hostText) ∧
      hostAndPort (.of scheme) hostText = .ok (host, port, unread) ∧
      ¬ (host = .name "" ∧ user.isSome = true)
  · obtain ⟨user, hostText, host, port, unread, hne, huser, hhost, hnamed⟩ := hread'
    refine .inr ⟨⟨scheme, user, some host, port, .segments [], none, none⟩,
      unread ++ rest.dropWhile (isInside (.of scheme)), rfl, ?_, fun more hmore => ?_⟩
    · obtain ⟨first, heq⟩ := (hostAndPort_suffix hspecial hhost).trans (userAndHost_suffix huser)
      exact ⟨first, by rw [← List.append_assoc, heq, List.takeWhile_append_dropWhile]⟩
    · rw [hread more hmore, userAndHost_path hne huser, bind_eq_ok]
      refine ⟨_, rfl, bind_eq_ok.2 ⟨_, hhost, ?_⟩⟩
      rw [ofHost, if_neg hnamed, List.append_assoc]
  · refine .inl fun more url hmore h => hread' ?_
    rw [hread more hmore, bind_eq_ok] at h
    obtain ⟨⟨user, hostText⟩, huser, h⟩ := h
    rw [bind_eq_ok] at h
    obtain ⟨⟨host, port, unread⟩, hhost, h⟩ := h
    -- that there is no path matters only to an authority without a host, which is none here
    have hne : hostText ≠ [] := by
      rintro rfl
      rw [hostAndPort_nil hspecial] at hhost
      cases hhost
    unfold ofHost at h
    split at h
    · cases h
    · next hnamed =>
      exact ⟨user, hostText, host, port, unread, hne, userAndHost_path hne huser _, hhost, hnamed⟩

/-- Where a text goes on after a slash, it names the same host, and what comes after the host goes
on. -/
theorem withAuthority_append {scheme : String} {rest : List Char} {url : Url}
    (hspecial : (SchemeKind.of scheme).isSpecial = true)
    (h : withAuthority scheme rest = .ok url) :
    url.scheme = scheme ∧ ∃ path, path <:+ rest ∧ url.withPath path = url ∧
      ∀ more, StartsOutside (.of scheme) more →
        withAuthority scheme (rest ++ more) = .ok (url.withPath (path ++ more)) := by
  rw [← List.append_nil rest] at h
  rcases withAuthority_cases hspecial rest with hnone | ⟨url', path, hscheme, hpath, hgoes⟩
  · exact absurd h (hnone [] url nofun)
  · cases (hgoes [] nofun).symm.trans h
    rw [List.append_nil]
    exact ⟨hscheme, path, hpath, rfl, hgoes⟩

theorem startsOutside_slash (kind : SchemeKind) (text : List Char) :
    StartsOutside kind ('/' :: text) := by
  rintro c ⟨⟩
  simp [isInside, endsAuthority, isSlash]

end

/-! ## The path -/

section

variable {port : Nat} {path text : List Char}

/-- A text that does not end in a slash has no empty part at its end. -/
theorem getLast?_parts {p : Char → Bool} : ∀ {text : List Char}, text ≠ [] →
    (∀ c, text.getLast? = some c → p c = false) → (Text.parts p text).getLast? ≠ some []
  | [], h, _ => absurd rfl h
  | c :: rest, _, hlast => by
    by_cases hrest : rest = []
    · subst hrest
      rw [parts_of_forall fun d hd => by rw [List.mem_singleton.1 hd]; exact hlast c rfl]
      exact fun heq => List.cons_ne_nil _ _ (Option.some.inj heq)
    have hlater : (Text.parts p rest).getLast? ≠ some [] :=
      getLast?_parts hrest fun d hd => hlast d (by rw [List.getLast?_cons, hd]; rfl)
    cases hc : p c with
    | true =>
      rw [parts_cons hc, ← List.singleton_append,
        List.getLast?_append_of_ne_nil _ (Text.parts_ne_nil p rest)]
      exact hlater
    | false =>
      obtain ⟨part, others, heq, hcons⟩ := exists_parts_cons hc rest
      rw [hcons]
      rw [heq] at hlater
      cases others with
      | nil => exact fun heq => List.cons_ne_nil _ _ (Option.some.inj heq)
      | cons other others => exact hlater

theorem segments_network (text : List Char) : segments (.network port) text =
    .segments (follow (.network port) [] (Text.parts (isSlash true) text)) := rfl

/-- After a slash, segments go on from what those before it leave. -/
theorem segments_slash (text more : List Char) :
    segments (.network port) (text ++ '/' :: more) = .segments (follow (.network port)
      (settle [] (Text.parts (isSlash true) text)) (Text.parts (isSlash true) more)) := by
  have hfile : SchemeKind.network port ≠ .file := nofun
  rw [segments_network, parts_append rfl, follow_append hfile (Text.parts_ne_nil _ _)]

/-- Segments go on from the directory of those before them. -/
theorem segments_append (htext : text ≠ [])
    (hlast : ∀ c, text.getLast? = some c → isSlash true c = false) (more : List Char) :
    segments (.network port) (text ++ '/' :: more) =
      .segments (follow (.network port) (segments (.network port) text).directory.reverse
        (Text.parts (isSlash true) more)) := by
  have hfile : SchemeKind.network port ≠ .file := nofun
  rw [segments_slash, segments_network,
    directory_follow hfile (Text.parts_ne_nil _ _) (getLast?_parts htext hlast),
    List.reverse_reverse]

/-- A path goes on from its directory. -/
theorem pathAfterHost_append
    (hlast : ∀ c, path.getLast? = some c → isSlash true c = false) (more : List Char) :
    pathAfterHost (.network port) (path ++ '/' :: more) =
      .segments (follow (.network port) (pathAfterHost (.network port) path).directory.reverse
        (Text.parts (isSlash true) more)) := by
  match path with
  | [] => rfl
  | c :: rest =>
    rw [List.cons_append, pathAfterHost, pathAfterHost]
    change (if isSlash true c then _ else _) = UrlPath.segments (follow _
      (UrlPath.directory (if isSlash true c then _ else _)).reverse _)
    split
    · next hslash =>
      have hrest : rest ≠ [] := by
        rintro rfl
        exact Bool.false_ne_true ((hlast c rfl).symm.trans hslash)
      exact segments_append hrest
        (fun d hd => hlast d (by rw [List.getLast?_cons, hd]; rfl)) more
    · exact segments_append (List.cons_ne_nil _ _) hlast more

/-- A text with neither query nor fragment in it ends no path. -/
theorem forall_of_queryAndFragment {special : Bool}
    (h : queryAndFragment special (text.dropWhile fun c => !endsPath c) = (none, none)) :
    ∀ c ∈ text, endsPath c = false := by
  have hnil : (text.dropWhile fun c => !endsPath c) = [] := by
    cases hrest : text.dropWhile fun c => !endsPath c with
    | nil => rfl
    | cons c rest =>
      have hc : endsPath c = true := by
        have hfirst := List.head?_dropWhile_not (fun c => !endsPath c) text
        rw [hrest] at hfirst
        simpa using hfirst
      rw [endsPath, Bool.or_eq_true, decide_eq_true_iff, decide_eq_true_iff] at hc
      rw [hrest] at h
      rcases hc with rfl | rfl <;> cases h
  intro c hc
  simpa using List.dropWhile_eq_nil_iff.1 hnil c hc

theorem withPath_of_network {url : Url} (hkind : SchemeKind.of url.scheme = .network port)
    (path : List Char) : url.withPath path =
      { url with
        path := pathAfterHost (.network port) (path.takeWhile fun c => !endsPath c)
        query := (queryAndFragment true (path.dropWhile fun c => !endsPath c)).1
        fragment := (queryAndFragment true (path.dropWhile fun c => !endsPath c)).2 } := by
  rw [withPath, hkind]
  rfl

/-- Without query and fragment, what comes after a host goes on from the directory of the path. -/
theorem withPath_append {url : Url} (hkind : SchemeKind.of url.scheme = .network port)
    (hquery : url.query = none) (hfragment : url.fragment = none)
    (hlast : ∀ c, path.getLast? = some c → isSlash true c = false)
    (hpath : url.withPath path = url) (more : List Char) :
    url.withPath (path ++ '/' :: more) =
      { url with
        path := .segments (follow (.network port) url.path.directory.reverse
          (Text.parts (isSlash true) (more.takeWhile fun c => !endsPath c)))
        query := (queryAndFragment true (more.dropWhile fun c => !endsPath c)).1
        fragment := (queryAndFragment true (more.dropWhile fun c => !endsPath c)).2 } := by
  rw [withPath_of_network hkind] at hpath
  have hplain : ∀ c ∈ path, (!endsPath c) = true := fun c hc => by
    rw [forall_of_queryAndFragment (Prod.ext ((congrArg Url.query hpath).trans hquery)
      ((congrArg Url.fragment hpath).trans hfragment)) c hc]
    rfl
  have hbase : pathAfterHost (.network port) path = url.path := by
    rw [← congrArg Url.path hpath, List.takeWhile_eq_self_iff.2 hplain]
  rw [withPath_of_network hkind, List.takeWhile_append_of_pos hplain,
    List.dropWhile_append_of_pos hplain, List.takeWhile_cons_of_pos rfl,
    List.dropWhile_cons_of_pos rfl, pathAfterHost_append hlast, hbase]

end

/-! ## The whole -/

/-- The text ends in a character that counts and is no slash. -/
def EndsOpen (text : List Char) : Prop :=
  ∃ first c, text = first ++ [c] ∧ 0x20 < c.toNat ∧ isSlash true c = false

section

variable {base : String} {text rest : List Char} {scheme : String} {url : Url} {port : Nat}

/-- A text that ends visibly keeps what is significant of it where more comes after it. -/
theorem significant_append (hbase : EndsOpen base.toList) (text : List Char) :
    significant (base ++ String.ofList text) = significant base ++ inner text := by
  obtain ⟨first, c, heq, hc, -⟩ := hbase
  have houter : decide (c.toNat ≤ 0x20) = false := decide_eq_false (Nat.not_le.2 hc)
  have hread (text : String) : significant text =
      inner (text.toList.dropWhile fun c => decide (c.toNat ≤ 0x20)) := rfl
  rw [hread, hread, String.toList_append, String.toList_ofList, heq, List.append_assoc,
    List.singleton_append, dropWhile_append_cons houter, dropWhile_append_cons houter,
    inner_append hc]

/-- A visible character at the end counts. -/
theorem inner_concat {c : Char} (hc : 0x20 < c.toNat) (first : List Char) :
    ∃ start, inner (first ++ [c]) = start ++ [c] := by
  have hcounts : decide (c ≠ '\t' ∧ c ≠ '\n' ∧ c ≠ '\r') = true := by
    refine decide_eq_true ⟨?_, ?_, ?_⟩ <;> rintro rfl <;> exact absurd hc (by decide)
  rw [inner, trimEnd_append hc, List.filter_append]
  exact ⟨_, congrArg _ (List.filter_cons_of_pos hcounts)⟩

/-- What is significant of a text ends as the text does. -/
theorem getLast?_significant (hbase : EndsOpen base.toList) :
    ∀ c, (significant base).getLast? = some c → isSlash true c = false := by
  obtain ⟨first, c, heq, hc, hslash⟩ := hbase
  have houter : decide (c.toNat ≤ 0x20) = false := decide_eq_false (Nat.not_le.2 hc)
  obtain ⟨start, hstart⟩ := inner_concat hc (first.dropWhile fun c => decide (c.toNat ≤ 0x20))
  have hread : significant base = start ++ [c] := by
    rw [← hstart, ← dropWhile_append_cons houter, ← heq]
    rfl
  intro d hd
  rw [hread, List.getLast?_concat] at hd
  exact Option.some.inj hd ▸ hslash

/-- The scheme stays where a text goes on. -/
theorem scheme?_append (h : scheme? text = some (scheme, rest)) (more : List Char) :
    rest <:+ text ∧ scheme? (text ++ more) = some (scheme, rest ++ more) := by
  unfold scheme? at h
  split at h
  · next first others rest' hscheme hrest =>
    split at h
    · next hfirst =>
      cases h
      have hcolon : isSchemeChar ':' = false := rfl
      have htext : first :: others ++ ':' :: rest = text := by
        rw [← hscheme, ← hrest, List.takeWhile_append_dropWhile]
      rw [← htext, takeWhile_append_cons hcolon] at hscheme
      rw [← htext, dropWhile_append_cons hcolon] at hrest
      refine ⟨⟨first :: others ++ [':'], by rw [← htext, List.append_assoc]; rfl⟩, ?_⟩
      have hmore : text ++ more = first :: others ++ ':' :: (rest ++ more) := by
        rw [← htext, List.append_assoc]
        rfl
      have hdrop := List.append_cancel_right (hrest.trans (List.nil_append _).symm)
      rw [scheme?, hmore, takeWhile_append_cons hcolon, dropWhile_append_cons hcolon, hscheme,
        hdrop]
      exact if_pos hfirst
    · cases h
  · cases h

/-- A slash ends a scheme. -/
theorem scheme?_slash (text more : List Char) : scheme? (text ++ '/' :: more) =
    (scheme? text).map fun (scheme, rest) => (scheme, rest ++ '/' :: more) := by
  unfold scheme?
  rw [takeWhile_append_cons rfl, dropWhile_append_cons rfl]
  cases text.takeWhile isSchemeChar with
  | nil => rfl
  | cons first others =>
    cases text.dropWhile isSchemeChar with
    | nil => rfl
    | cons c rest =>
      by_cases hc : c = ':'
      · subst hc
        cases hfirst : first.isAlpha <;> simp [hfirst]
      · simp [hc]

/-- A network needs a host. -/
theorem withAuthority_nil (hspecial : (SchemeKind.of scheme).isSpecial = true) :
    withAuthority scheme [] = .error .emptyHost := by
  rw [withAuthority_eq]
  change hostAndPort _ [] >>= _ = _
  rw [hostAndPort_nil hspecial]
  rfl

theorem scheme_of_withAuthority (h : withAuthority scheme rest = .ok url) :
    url.scheme = scheme := by
  rw [withAuthority_eq, bind_eq_ok] at h
  obtain ⟨row, -, h⟩ := h
  rw [bind_eq_ok] at h
  obtain ⟨named, -, h⟩ := h
  unfold ofHost at h
  split at h
  · cases h
  · cases h
    rfl

theorem scheme_of_ofFile (h : ofFile rest = .ok url) : url.scheme = "file" := by
  unfold ofFile at h
  dsimp only at h
  split at h
  · split at h
    · cases h
      rfl
    · rw [bind_eq_ok] at h
      obtain ⟨host, -, h⟩ := h
      cases h
      rfl
  · cases h
    rfl

/-- The URL of a network is read from what follows its scheme and any number of slashes. -/
theorem network_of_parse (h : parse base = .ok url)
    (hkind : SchemeKind.of url.scheme = .network port) :
    ∃ rest, scheme? (significant base) = some (url.scheme, rest) ∧
      withAuthority url.scheme (rest.dropWhile (isSlash true)) = .ok url := by
  unfold parse at h
  split at h
  · cases h
  next scheme rest hscheme =>
  split at h
  · rw [scheme_of_ofFile h] at hkind
    cases hkind
  · cases scheme_of_withAuthority h
    exact ⟨rest, hscheme, h⟩
  · next hother =>
    split at h
    · rw [scheme_of_withAuthority h, hother] at hkind
      cases hkind
    · cases h
      exact absurd (hother.symm.trans hkind) nofun

theorem parse_of_network {text : String}
    (hkind : SchemeKind.of scheme = .network port)
    (hscheme : scheme? (significant text) = some (scheme, rest)) :
    parse text = withAuthority scheme (rest.dropWhile (isSlash true)) := by
  rw [parse, hscheme]
  dsimp only
  rw [hkind]

/-- The URL with what comes after a slash at its end. -/
def extend (url : Url) (text : List Char) : Url :=
  let after := (inner text).dropWhile fun c => !endsPath c
  { url with
    path := .segments (follow (.of url.scheme) url.path.directory.reverse
      (Text.parts (isSlash true) (pathText text)))
    query := (queryAndFragment true after).1
    fragment := (queryAndFragment true after).2 }

/-- Where the text of a URL goes on after a slash, its path goes on from its directory, and the
rest of the URL is the same. -/
theorem parse_append (hbase : EndsOpen base.toList) (h : parse base = .ok url)
    (hkind : SchemeKind.of url.scheme = .network port) (hquery : url.query = none)
    (hfragment : url.fragment = none) (text : List Char) :
    parse (base ++ String.ofList ('/' :: text)) = .ok (url.extend text) := by
  obtain ⟨rest, hscheme, hrest⟩ := network_of_parse h hkind
  have hslash : inner ('/' :: text) = '/' :: inner text := inner_append (by decide) [] text
  have hspecial : (SchemeKind.of url.scheme).isSpecial = true := by rw [hkind]; rfl
  obtain ⟨hsuffix, hmore⟩ := scheme?_append hscheme ('/' :: inner text)
  obtain ⟨-, path, hpath, hread, hgoes⟩ := withAuthority_append hspecial hrest
  have hne : rest.dropWhile (isSlash true) ≠ [] := fun hnil => by
    rw [hnil, withAuthority_nil hspecial] at hrest
    cases hrest
  have hlast : ∀ c, path.getLast? = some c → isSlash true c = false := by
    intro c hc
    refine getLast?_significant hbase c ?_
    obtain ⟨first, heq⟩ := hpath.trans ((List.dropWhile_suffix _).trans hsuffix)
    rw [← heq, List.getLast?_append, hc]
    rfl
  rw [parse_of_network hkind (by rw [significant_append hbase, hslash, hmore]),
    List.dropWhile_append, if_neg (by simpa using hne), hgoes _ (startsOutside_slash _ _),
    withPath_append hkind hquery hfragment hlast hread, extend, hkind]
  rfl

end

end TraceWatch.Url
