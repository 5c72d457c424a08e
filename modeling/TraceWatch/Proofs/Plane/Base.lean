import TraceWatch.Config.Rules
import TraceWatch.Proofs.Plane.Address
import TraceWatch.Proofs.Url.Slash

/-!
# What the URL of a workflow plane is good for

A configuration is accepted if the URL of its workflow plane can be read. The client writes the path
of a call after the text of that URL, without the slashes at its end. Whether the request then goes
to the endpoint of the call does not depend on the call, as long as its names are simple: it is the
same for all of them, and can be told from the URL with one slash more
(`ServiceConfig.requests_reach_iff`). So one accepted URL serves every call, and another, with a
query say, none.
-/

namespace TraceWatch

namespace PlaneCall

/-- The names that a call is made with. -/
def arguments : PlaneCall → List String
  | submit spec => [spec.space]
  | delete job => [job.space, job.kind, job.name]
  | resource job => [job.space, job.kind, job.name]
  | agent org project name => [org, project, name]
  | environment org name => [org, name]
  | logs owner job => [owner, job]

/-- The names of a call are made of letters, digits and `-`. -/
def IsSimple (call : PlaneCall) : Prop := ∀ name ∈ call.arguments, Url.IsSimple name.toList

/-! ## Simple calls -/

theorem mem_arguments {call : PlaneCall} {name : String} (h : .name name ∈ call.segments) :
    name ∈ call.arguments ∨ ∃ kind ∈ call.arguments, name = collection kind := by
  cases call <;> simp [segments, resourceSegments] at h <;> simp [arguments] <;> tauto

/-- The collection of a simple kind has a simple name. -/
theorem isSimple_collection {kind : String} (h : Url.IsSimple kind.toList) :
    Url.IsSimple (collection kind).toList := by
  intro c hc
  simp only [collection, String.toList_append, String.toList_ofList, List.mem_append,
    List.mem_map] at hc
  rcases hc with ⟨d, hd, rfl⟩ | hc
  · exact Text.of_forall_ascii (p := fun d => (d.isAlphanum || d = '-') = true →
      (d.toLower.isAlphanum || d.toLower = '-') = true) (by decide)
      (Url.lt_of_isSimple (h d hd)) (h d hd)
  · have hs : c = 's' := by simpa using hc
    rw [hs]
    rfl

/-- The texts of a simple call are simple. -/
theorem IsSimple.texts {call : PlaneCall} (h : call.IsSimple) :
    ∀ text ∈ call.texts, Url.IsSimple text := by
  intro text htext
  obtain ⟨segment, hsegment, rfl⟩ := List.mem_map.1 htext
  cases segment with
  | word word => exact Url.isSimple_of_isAlphanum (isAlphanum_of_word hsegment)
  | name name =>
    rcases mem_arguments hsegment with hname | ⟨kind, hkind, rfl⟩
    · exact h name hname
    · exact isSimple_collection (h kind hkind)

/-- The path of a call is more than slashes. -/
theorem path_ne_slashes (call : PlaneCall) (text : List Char) :
    text ≠ Url.withoutSlashes text ++ call.path.toList := by
  obtain ⟨texts, htexts⟩ : ∃ texts, call.texts = "api".toList :: texts := by
    cases call <;> exact ⟨_, rfl⟩
  refine Url.ne_withoutSlashes_append (c := 'a') ?_ (by decide)
  rw [call.path_eq, htexts, Url.slashed_cons]
  exact .tail _ (List.mem_append_left _ (by decide))

end PlaneCall

/-! ## Under a base -/

namespace Url

/-- The URL is under a base with a text: it is on the host of the base, has the text after the path
of the base without the slashes at its end, and has no query. -/
structure IsUnder (url base : Url) (text : List Char) : Prop where
  scheme : url.scheme = base.scheme
  host : url.host = base.host
  port : url.port = base.port
  path : (renderPath url.path).toList = withoutSlashes (renderPath base.path).toList ++ text
  query : url.query = none

theorem toList_renderPath (names : List String) :
    (renderPath (.segments names)).toList = slashed (names.map String.toList) := by
  rw [renderPath, String.toList_join, slashed, List.flatMap_map, List.flatMap_map]
  exact List.flatMap_congr fun name _ => String.toList_append

theorem toList_renderPath_append (names names' : List String) :
    (renderPath (.segments (names ++ names'))).toList =
      (renderPath (.segments names)).toList ++ slashed (names'.map String.toList) := by
  rw [toList_renderPath, toList_renderPath, List.map_append, slashed, List.flatMap_append]
  rfl

/-- The path of a URL of a network has segments. -/
theorem exists_segments {text : String} {url : Url} {port : Nat} (h : parse text = .ok url)
    (hkind : SchemeKind.of url.scheme = .network port) :
    ∃ names, url.path = .segments names := by
  obtain ⟨rest, -, hrest⟩ := network_of_parse h hkind
  obtain ⟨-, path, -, hread, -⟩ := withAuthority_append (by rw [hkind]; rfl) hrest
  rw [withPath_of_network hkind] at hread
  exact hread ▸ exists_segments_pathAfterHost port _

/-- The text of a path without the slashes at its end is also that of its directory without
them. -/
theorem withoutSlashes_directory (names : List String) :
    withoutSlashes (renderPath (.segments (UrlPath.directory (.segments names)))).toList =
      withoutSlashes (renderPath (.segments names)).toList := by
  rw [UrlPath.directory]
  split
  · next hlast =>
    obtain ⟨first, rfl⟩ := List.getLast?_eq_some_iff.1 hlast
    rw [List.dropLast_concat, toList_renderPath_append]
    exact (withoutSlashes_concat_slash _).symm
  · rfl

/-- All of a text counts that is its own path. -/
theorem inner_of_pathText {text : List Char} (h : pathText text = text) : inner text = text := by
  refine (inner_sublist text).eq_of_length_le ?_
  have hle : (pathText text).length ≤ (inner text).length := (List.takeWhile_sublist _).length_le
  rwa [h] at hle

/-- Simple texts end visibly. -/
theorem endsVisibly_of_isSimple {texts : List (List Char)} (h : ∀ text ∈ texts, IsSimple text) :
    EndsVisibly texts := by
  intro text c htext hc
  have hsimple := h text (List.mem_of_getLast? htext) c (List.mem_of_getLast? hc)
  exact Text.of_forall_ascii (p := fun c => (c.isAlphanum || c = '-') = true → 0x20 < c.toNat)
    (by decide) (lt_of_isSimple hsimple) hsimple

section

variable {url base : Url} {port : Nat} {names : List String} {front : List Char}

/-- Where every path goes on from known segments, simple texts are added to them. -/
theorem parse_of_isSimple
    (hgoes : ∀ more, (∀ c ∈ inner more, endsPath c = false) →
      parse (String.ofList (front ++ '/' :: more)) = .ok (url.withSegments
        (follow (.network port) names (Text.parts (isSlash true) (inner more)))))
    {text : List Char} {texts : List (List Char)} (h : ∀ x ∈ text :: texts, IsSimple x) :
    parse (String.ofList (front ++ slashed (text :: texts))) =
      .ok (url.withSegments (names.reverse ++ (text :: texts).map String.ofList)) := by
  have hfile : SchemeKind.network port ≠ .file := nofun
  have hplain : ∀ x ∈ text :: texts, IsPlain x := fun x hx => (h x hx).isPlain
  have hpath := pathText_of_plain hplain (endsVisibly_of_isSimple h)
  have hfollow := follow_of_plain hfile names hplain (endsVisibly_of_isSimple h)
  rw [hpath, List.map_congr_left fun x hx => (h x hx).escape] at hfollow
  have hends : ∀ c ∈ text ++ slashed texts, endsPath c = false := by
    intro c hc
    have hmem : c ∈ slashed (text :: texts) := by
      rw [slashed_cons]
      exact .tail _ hc
    rcases of_mem_slashed hmem with rfl | ⟨x, hx, hc⟩
    · rfl
    · exact (hplain x hx).ends c hc
  have hinner := inner_of_pathText hpath
  rw [slashed_cons, hgoes _ (by rwa [hinner]), hinner, hfollow]

/-- Texts after segments are after the path of a base where the segments are its path. -/
theorem isUnder_withSegments_iff (texts : List (List Char)) :
    (url.withSegments (names ++ texts.map String.ofList)).IsUnder base (slashed texts) ↔
      (url.withSegments names).IsUnder base [] := by
  have hid : String.toList ∘ String.ofList = id := funext fun _ => String.toList_ofList
  have htext : (renderPath (.segments (names ++ texts.map String.ofList))).toList =
      (renderPath (.segments names)).toList ++ slashed texts := by
    rw [toList_renderPath_append, List.map_map, hid, List.map_id]
  constructor
  · rintro ⟨hscheme, hhost, hport, hpath, hquery⟩
    refine ⟨hscheme, hhost, hport, ?_, hquery⟩
    rw [List.append_nil]
    exact List.append_cancel_right (htext.symm.trans hpath)
  · rintro ⟨hscheme, hhost, hport, hpath, hquery⟩
    refine ⟨hscheme, hhost, hport, htext.trans ?_, hquery⟩
    rw [List.append_nil] at hpath
    exact congrArg (· ++ slashed texts) hpath

end

end Url

namespace PlaneClient

/-- The text that the URLs of a client's requests start with is a base that paths can be written
after: requests can be sent to its host, and one slash more comes after its path. -/
structure Continues (client : PlaneClient) (base : Url) : Prop where
  canSend : client.CanSend base
  reads : ∃ url, Url.parse (client.base ++ "/") = .ok url ∧ url.IsUnder base ['/'] ∧
    url.fragment = none

section

variable {client : PlaneClient} {call : PlaneCall} {base url : Url}

/-- Requests are sent over HTTP. -/
theorem CanSend.scheme (h : client.CanSend base) :
    base.scheme = "http" ∨ base.scheme = "https" := by
  have hreachable := h.2.2
  rw [isReachable, Bool.and_eq_true, Bool.or_eq_true, decide_eq_true_iff, decide_eq_true_iff]
    at hreachable
  exact hreachable.1

/-- Whether requests can be sent depends on the scheme and the host. -/
theorem canSend_congr (hscheme : url.scheme = base.scheme) (hhost : url.host = base.host) :
    client.CanSend url ↔ client.CanSend base := by
  rw [CanSend, CanSend, hasHost, hasHost, isReachable, isReachable, hscheme, hhost]

/-- A request is made if its URL can be read and requests can be sent there. -/
theorem exists_request_iff {text : List Char} : (∃ request, client.request call = .ok request ∧
      request.url.IsUnder base text) ↔
    ∃ url, Url.parse (client.base ++ call.path) = .ok url ∧ client.CanSend url ∧
      url.IsUnder base text := by
  constructor
  · rintro ⟨request, hrequest, hunder⟩
    cases hparse : Url.parse (client.base ++ call.path) with
    | error e =>
      rw [PlaneClient.request, hparse] at hrequest
      cases hrequest
    | ok url =>
      obtain ⟨hsend, hurl⟩ := request_of_parse hparse
      obtain ⟨user, huser⟩ := hurl request hrequest
      rw [huser] at hunder
      exact ⟨url, rfl, hsend.1 ⟨request, hrequest⟩, hunder.scheme, hunder.host, hunder.port,
        hunder.path, hunder.query⟩
  · rintro ⟨url, hparse, hcan, hunder⟩
    obtain ⟨hsend, hurl⟩ := request_of_parse hparse
    obtain ⟨request, hrequest⟩ := hsend.2 hcan
    obtain ⟨user, huser⟩ := hurl request hrequest
    refine ⟨request, hrequest, ?_⟩
    rw [huser]
    exact ⟨hunder.scheme, hunder.host, hunder.port, hunder.path, hunder.query⟩

/-- Paths can be written after a base that stands for itself if its host is one that requests can be
sent to, and there are no more slashes at the end of its path than its text shows. -/
theorem IsAt.continues_iff (h : client.IsAt base) : client.Continues base ↔ client.CanSend base ∧
    (Url.renderPath (.segments base.path.directory)).toList.getLast? ≠ some '/' := by
  obtain ⟨port, hkind⟩ := exists_network h.scheme
  obtain ⟨names, hnames⟩ := Url.exists_segments h.reads hkind
  have hfile : SchemeKind.of base.scheme ≠ .file := hkind ▸ nofun
  have hone : Url.follow (.of base.scheme) base.path.directory.reverse [[]] =
      base.path.directory.reverse.reverse ++ [[]].map String.ofList :=
    Url.follow_of_forall hfile _ (by decide)
  rw [List.reverse_reverse] at hone
  have hprobe : Url.parse (client.base ++ "/") =
      .ok (base.withSegments (base.path.directory ++ [[]].map String.ofList)) := by
    rw [← hone]
    exact Url.parse_append h.endsOpen h.reads hkind h.query h.fragment []
  have hdirectory : (base.withSegments base.path.directory).IsUnder base [] ↔
      (Url.renderPath (.segments base.path.directory)).toList.getLast? ≠ some '/' := by
    rw [← Url.withoutSlashes_eq_self_iff, hnames, Url.withoutSlashes_directory, ← hnames, eq_comm]
    exact ⟨fun hunder => hunder.path.trans (List.append_nil _), fun heq =>
      ⟨rfl, rfl, rfl, heq.trans (List.append_nil _).symm, rfl⟩⟩
  rw [← hdirectory, ← Url.isUnder_withSegments_iff [[]]]
  constructor
  · rintro ⟨hsend, url, hurl, hunder, -⟩
    cases hprobe.symm.trans hurl
    exact ⟨hsend, hunder⟩
  · exact fun ⟨hsend, hunder⟩ => ⟨hsend, _, hprobe, hunder, rfl⟩

end

section

variable {config : PlaneConfig} {token : Option String} {call : PlaneCall} {base url : Url}
  {port : Nat} {names : List String}

/-- The text of a URL under the base of a configuration. -/
theorem ofConfig_base_append (more : String) : (ofConfig config token).base ++ more =
    String.ofList (Url.withoutSlashes config.baseUrl.toList ++ more.toList) := by
  rw [String.ofList_append, String.ofList_toList]
  rfl

/-- Where every path goes on from known segments, the request of a simple call does so just where
the base with one slash more does. -/
theorem reaches_iff_of_names
    (hgoes : ∀ more, (∀ c ∈ Url.inner more, Url.endsPath c = false) →
      Url.parse (String.ofList (Url.withoutSlashes config.baseUrl.toList ++ '/' :: more)) =
        .ok (url.withSegments (Url.follow (.network port) names
          (Text.parts (Url.isSlash true) (Url.inner more)))))
    (hcall : call.IsSimple) :
    (∃ request, (ofConfig config token).request call = .ok request ∧
      request.url.IsUnder base call.path.toList) ↔ (ofConfig config token).Continues base := by
  obtain ⟨text, texts, htexts⟩ := call.exists_texts_eq
  have hparse : Url.parse ((ofConfig config token).base ++ call.path) =
      .ok (url.withSegments (names.reverse ++ (text :: texts).map String.ofList)) := by
    rw [ofConfig_base_append, call.path_eq, htexts]
    exact Url.parse_of_isSimple hgoes (htexts ▸ hcall.texts)
  have hprobe : Url.parse ((ofConfig config token).base ++ "/") =
      .ok (url.withSegments (names.reverse ++ [[]].map String.ofList)) := by
    have hslash : "/".toList = Url.slashed [[]] := rfl
    rw [ofConfig_base_append, hslash]
    exact Url.parse_of_isSimple hgoes (by simp [Url.IsSimple])
  rw [exists_request_iff, call.path_eq, htexts]
  constructor
  · rintro ⟨url', hurl', hsend, hunder⟩
    cases hparse.symm.trans hurl'
    refine ⟨(canSend_congr hunder.scheme hunder.host).1 hsend, _, hprobe, ?_, rfl⟩
    exact (Url.isUnder_withSegments_iff [[]]).2 ((Url.isUnder_withSegments_iff _).1 hunder)
  · rintro ⟨hsend, url', hurl', hunder, -⟩
    cases hprobe.symm.trans hurl'
    refine ⟨_, hparse, (canSend_congr hunder.scheme hunder.host).2 hsend, ?_⟩
    exact (Url.isUnder_withSegments_iff _).2 ((Url.isUnder_withSegments_iff [[]]).1 hunder)

/-- Where every path goes into a query or a fragment, none can be written after the base. -/
theorem not_continues_of_ends
    (hends : ∀ more url,
      Url.parse (String.ofList (Url.withoutSlashes config.baseUrl.toList ++ '/' :: more)) =
        .ok url → url.query ≠ none ∨ url.fragment ≠ none ∧ url.path = base.path) :
    ¬ (ofConfig config token).Continues base := by
  rintro ⟨-, url, hparse, hunder, hfragment⟩
  rw [ofConfig_base_append] at hparse
  rcases hends [] url hparse with hsome | ⟨hsome, -⟩
  · exact hsome hunder.query
  · exact hsome hfragment

/-- The request of a simple call goes to its endpoint just where the base goes on. -/
theorem reaches_iff (hbase : Url.parse config.baseUrl = .ok base) (hcall : call.IsSimple) :
    (∃ request, (ofConfig config token).request call = .ok request ∧
      request.url.IsUnder base call.path.toList) ↔ (ofConfig config token).Continues base := by
  by_cases hscheme : base.scheme = "http" ∨ base.scheme = "https"
  · obtain ⟨port, hkind⟩ := exists_network hscheme
    rcases Url.parse_slash_cases hbase hkind with hends | ⟨-, -, url, names, hgoes⟩
    · refine iff_of_false (fun hrequest => ?_) (not_continues_of_ends hends)
      obtain ⟨text, texts, htexts⟩ := call.exists_texts_eq
      obtain ⟨url, hparse, -, hunder⟩ := exists_request_iff.1 hrequest
      rw [ofConfig_base_append, call.path_eq, htexts] at hparse
      rcases hends _ url hparse with hquery | ⟨-, hsame⟩
      · exact hquery hunder.query
      · exact call.path_ne_slashes _ (hsame ▸ hunder.path)
    · exact reaches_iff_of_names hgoes hcall
  · refine iff_of_false (fun hrequest => ?_) fun hcontinues => hscheme hcontinues.canSend.scheme
    obtain ⟨url, -, hsend, hunder⟩ := exists_request_iff.1 hrequest
    exact hscheme (hunder.scheme ▸ hsend.scheme)

/-- Paths can only be written after a base without query and fragment. -/
theorem Continues.withoutQuery (h : (ofConfig config token).Continues base)
    (hbase : Url.parse config.baseUrl = .ok base) : base.query = none ∧ base.fragment = none := by
  obtain ⟨port, hkind⟩ := exists_network h.canSend.scheme
  rcases Url.parse_slash_cases hbase hkind with hends | ⟨hquery, hfragment, -⟩
  · exact absurd h (not_continues_of_ends hends)
  · exact ⟨hquery, hfragment⟩

end

end PlaneClient

namespace ServiceConfig

theorem fault?_of_validate {config : ServiceConfig} (h : config.validate = .ok ()) :
    config.fault? = none := by
  rw [validate] at h
  split at h
  · assumption
  · cases h

/-- The URL of the workflow plane of an accepted configuration can be read. -/
theorem exists_base_of_validate {config : ServiceConfig} (h : config.validate = .ok ()) :
    ∃ base, Url.parse config.plane.baseUrl = .ok base := by
  cases hbase : Url.parse config.plane.baseUrl with
  | ok base => exact ⟨base, rfl⟩
  | error error =>
    have hfault := fault?_of_validate h
    simp only [fault?, hbase] at hfault
    repeat' split at hfault
    all_goals cases hfault

/-- The URL of the workflow plane of an accepted configuration can be read, which is not enough for
the requests of simple calls. They are made and go to their endpoints just where paths can be
written after the URL, all of them or none. It is then one of HTTP without query and fragment; and
if it is such a URL and stands for itself, its host has to be one that requests can be sent to, and
its path must not end in more slashes than its text. -/
theorem requests_reach_iff {config : ServiceConfig} (h : config.validate = .ok ()) :
    let client := PlaneClient.ofConfig config.plane none
    ∃ base, Url.parse config.plane.baseUrl = .ok base ∧
      (∀ call : PlaneCall, call.IsSimple → ((∃ request, client.request call = .ok request ∧
        request.url.IsUnder base call.path.toList) ↔ client.Continues base)) ∧
      (client.Continues base → (base.scheme = "http" ∨ base.scheme = "https") ∧
        base.query = none ∧ base.fragment = none) ∧
      (client.IsAt base → (client.Continues base ↔ client.CanSend base ∧
        (Url.renderPath (.segments base.path.directory)).toList.getLast? ≠ some '/')) := by
  intro client
  obtain ⟨base, hbase⟩ := exists_base_of_validate h
  exact ⟨base, hbase, fun call => PlaneClient.reaches_iff hbase,
    fun hcontinues => ⟨hcontinues.canSend.scheme, hcontinues.withoutQuery hbase⟩,
    PlaneClient.IsAt.continues_iff⟩

/-- A URL with a query is accepted, and then no simple call reaches its endpoint; with the URL that
is set by default each of them does. -/
theorem requests_reach_iff_tenant :
    let config : ServiceConfig :=
      { fallback with plane := { fallback.plane with baseUrl := "http://plane.test?tenant=a" } }
    (config.validate = .ok () ∧ ∃ base, Url.parse config.plane.baseUrl = .ok base ∧
      ∀ call : PlaneCall, call.IsSimple → ¬ ∃ request,
        (PlaneClient.ofConfig config.plane none).request call = .ok request ∧
          request.url.IsUnder base call.path.toList) ∧
    (fallback.validate = .ok () ∧ ∃ base, Url.parse fallback.plane.baseUrl = .ok base ∧
      ∀ call : PlaneCall, call.IsSimple → ∃ request,
        (PlaneClient.ofConfig fallback.plane none).request call = .ok request ∧
          request.url.IsUnder base call.path.toList) := by
  intro config
  constructor
  · have hvalid : config.validate = .ok () := by
      simp only [config]
      rfl
    obtain ⟨base, hbase, hreaches, hquery, -⟩ := requests_reach_iff hvalid
    have htenant : Url.parse config.plane.baseUrl = .ok ⟨"http", none, some (.name "plane.test"),
        none, .segments [""], some "tenant=a", none⟩ := by
      simp only [config]
      rfl
    cases hbase.symm.trans htenant
    refine ⟨hvalid, _, hbase, fun call hcall hrequest => ?_⟩
    exact absurd (hquery ((hreaches call hcall).1 hrequest)).2.1 nofun
  · have hvalid : fallback.validate = .ok () := rfl
    obtain ⟨base, hbase, hreaches, -, hcontinues⟩ := requests_reach_iff hvalid
    have hlocal : Url.parse fallback.plane.baseUrl = .ok ⟨"http", none, some (.name "localhost"),
        some 8080, .segments [""], none, none⟩ := rfl
    cases hbase.symm.trans hlocal
    refine ⟨hvalid, _, hbase, fun call hcall => (hreaches call hcall).2 ?_⟩
    refine (hcontinues ⟨hbase, .inl rfl, rfl, rfl, ?_⟩).2 ⟨⟨rfl, rfl, rfl⟩, by decide⟩
    exact ⟨"http://localhost:808".toList, '0', by decide +kernel, by decide, rfl⟩

end ServiceConfig

end TraceWatch
