import TraceWatch.Plane.Request
import TraceWatch.Proofs.Url.Extension

/-!
# Where the requests of calls go

The path of a call is a row of segments: words of the interface, and names of what the call is
about. The names are written as they are. So a request is addressed to what its call is about
exactly if each of the names is kept as one segment and read as it is
(`PlaneClient.requests_addressed`). A name with a slash, a query, an escape or a step upwards in it
leads elsewhere, also to what belongs to others.
-/

namespace TraceWatch

/-- A segment of the path of a call. -/
inductive PathSegment where
  /-- A word of the interface. -/
  | word (text : String)
  /-- The name of something that the call is about. -/
  | name (text : String)
deriving DecidableEq, Repr

namespace PathSegment

/-- The text of a segment. -/
def text : PathSegment → String
  | word text => text
  | name text => text

/-- Whether a segment may stand like this in a URL: a word as it is, a name with escapes that stand
for it. -/
def IsWritten : PathSegment → String → Prop
  | word text, written => written = text
  | name text, written => Url.StandsFor text.toList written

end PathSegment

namespace PlaneCall

/-- The segments of the path of a resource. -/
def resourceSegments (job : JobRef) : List PathSegment :=
  [.word "api", .word "v1", .word "namespaces", .name job.space, .name (collection job.kind),
    .name job.name]

/-- The segments of the path of a call. -/
def segments : PlaneCall → List PathSegment
  | submit spec =>
    [.word "api", .word "v1", .word "namespaces", .name spec.space, .word "workflowruns"]
  | delete job => resourceSegments job
  | resource job => resourceSegments job
  | agent org project name =>
    [.word "api", .word "v1", .word "orgs", .name org, .word "projects", .name project,
      .word "agents", .name name]
  | environment org name =>
    [.word "api", .word "v1", .word "orgs", .name org, .word "environments", .name name]
  | logs owner job =>
    [.word "api", .word "v1", .word "namespaces", .name owner, .word "workflowruns", .name job,
      .word "logs"]

/-- The organization or namespace that a call is made in. -/
def owner : PlaneCall → String
  | submit spec => spec.space
  | delete job => job.space
  | resource job => job.space
  | agent org _ _ => org
  | environment org _ => org
  | logs owner _ => owner

/-- The texts of the segments of a call. -/
def texts (call : PlaneCall) : List (List Char) :=
  call.segments.map fun segment => segment.text.toList

/-- The names in a call are plain, and its path does not end in a blank. -/
def IsPlain (call : PlaneCall) : Prop :=
  (∀ name, .name name ∈ call.segments → Url.IsPlain name.toList) ∧ Url.EndsVisibly call.texts

/-- The URL is the one under a base that a call is about: its path is that of the base and the
segments of the call after it, and nothing comes after the path. -/
structure Addresses (call : PlaneCall) (base url : Url) : Prop where
  scheme : url.scheme = base.scheme
  host : url.host = base.host
  port : url.port = base.port
  path : ∃ names, url.path = .segments (base.path.directory ++ names) ∧
    List.Forall₂ PathSegment.IsWritten call.segments names
  query : url.query = none
  fragment : url.fragment = none

end PlaneCall

/-! ## Words -/

namespace Url

theorem plainStops_of_forall : ∀ {text : List Char}, (∀ c ∈ text, c ≠ '%') →
    plainStops text = text
  | [], _ => rfl
  | c :: rest, h => by
    obtain ⟨hc, hrest⟩ := List.forall_mem_cons.1 h
    rw [plainStops, plainStops_of_forall hrest]
    · rintro _ rfl
      exact absurd rfl hc
    · rintro _ rfl
      exact absurd rfl hc

/-- The text is made of letters, digits and `-`. -/
def IsSimple (text : List Char) : Prop := ∀ c ∈ text, (c.isAlphanum || c = '-') = true

/-- Letters, digits and `-` have no escapes in them. -/
theorem IsSimple.isPlain {text : List Char} (h : IsSimple text) : IsPlain text := by
  have hne {d : Char} (hd : (d.isAlphanum || d = '-') = false) : ∀ c ∈ text, c ≠ d := by
    rintro c hc rfl
    exact Bool.false_ne_true (hd.symm.trans (h c hc))
  have hstops : plainStops text = text := plainStops_of_forall (hne rfl)
  refine ⟨fun c hc => ?_, fun c hc => ?_, fun c hc => ⟨hne rfl c hc, hne rfl c hc, hne rfl c hc⟩,
    ⟨?_, ?_⟩, ?_⟩
  · rw [isSlash, decide_eq_false (hne rfl c hc), decide_eq_false (hne rfl c hc)]
    rfl
  · rw [endsPath, decide_eq_false (hne rfl c hc), decide_eq_false (hne rfl c hc)]
    rfl
  · rw [hstops]
    rintro rfl
    exact hne (d := '.') rfl '.' (by simp) rfl
  · rw [hstops]
    rintro rfl
    exact hne (d := '.') rfl '.' (by simp) rfl
  · rintro ⟨before, a, b, after, rfl, -⟩
    exact hne (d := '%') rfl '%' (by simp) rfl

theorem isSimple_of_isAlphanum {text : List Char} (h : ∀ c ∈ text, c.isAlphanum = true) :
    IsSimple text := fun c hc => by rw [h c hc, Bool.true_or]

theorem isPlain_of_isAlphanum {text : List Char} (h : ∀ c ∈ text, c.isAlphanum = true) :
    IsPlain text := (isSimple_of_isAlphanum h).isPlain

theorem lt_of_isAlphanum {c : Char} (h : c.isAlphanum = true) : c.toNat < 0x80 := by
  delta Char.isAlphanum Char.isAlpha Char.isUpper Char.isLower Char.isDigit at h
  simp only [Bool.or_eq_true, Bool.and_eq_true, decide_eq_true_eq, UInt32.le_iff_toNat_le] at h
  change (((65 ≤ c.toNat ∧ c.toNat ≤ 90) ∨ (97 ≤ c.toNat ∧ c.toNat ≤ 122)) ∨
    (48 ≤ c.toNat ∧ c.toNat ≤ 57)) at h
  omega

theorem lt_of_isSimple {c : Char} (h : (c.isAlphanum || c = '-') = true) : c.toNat < 0x80 := by
  rw [Bool.or_eq_true, decide_eq_true_iff] at h
  rcases h with h | rfl
  · exact lt_of_isAlphanum h
  · decide

/-- Letters, digits and `-` are written as they are. -/
theorem IsSimple.percentEncode : ∀ {text : List Char}, IsSimple text →
    Text.percentEncode escapedInPath text = text
  | [], _ => rfl
  | c :: rest, h => by
    obtain ⟨hc, hrest⟩ := List.forall_mem_cons.1 h
    have hescape : escapedInPath c = false :=
      Text.of_forall_ascii
        (p := fun c => (c.isAlphanum || c = '-') = true → escapedInPath c = false)
        (by decide) (lt_of_isSimple hc) hc
    rw [Text.percentEncode_cons_of_not (lt_of_isSimple hc) hescape, percentEncode hrest]

theorem IsSimple.escape {text : List Char} (h : IsSimple text) :
    escape escapedInPath text = String.ofList text := by rw [Url.escape, h.percentEncode]

end Url

/-! ## The path of a call -/

namespace PlaneCall

theorem collection_jobKind : collection jobKind = "workflowruns" := by
  simp [collection, jobKind]

theorem space_eq (name : String) : space name = "/api/v1/namespaces/" ++ name ++ "/" := rfl

theorem organization_eq (name : String) : organization name = "/api/v1/orgs/" ++ name ++ "/" := rfl

/-- The path of a call is its segments with a slash before each. -/
theorem path_eq (call : PlaneCall) : call.path.toList = Url.slashed call.texts := by
  cases call <;>
    simp [path, space_eq, organization_eq, resourcePath, JobRef.run, collection_jobKind, texts,
      segments, resourceSegments, PathSegment.text, Url.slashed]

theorem exists_texts_eq (call : PlaneCall) : ∃ text texts, call.texts = text :: texts := by
  cases call <;> exact ⟨_, _, rfl⟩

/-- The words of the interface. -/
def words : List String :=
  ["api", "v1", "namespaces", "orgs", "projects", "agents", "environments", "workflowruns", "logs"]

theorem mem_words {call : PlaneCall} {word : String} (h : .word word ∈ call.segments) :
    word ∈ words := by
  cases call <;> simp [segments, resourceSegments] at h <;> simp [words] <;> tauto

/-- The words of the interface are made of letters and digits. -/
theorem isAlphanum_of_word {call : PlaneCall} {word : String} (h : .word word ∈ call.segments) :
    ∀ c ∈ word.toList, c.isAlphanum = true := by
  have hall : (words.all fun word => word.toList.all Char.isAlphanum) = true := by decide +kernel
  exact List.all_eq_true.1 (List.all_eq_true.1 hall word (mem_words h))

/-- The words of the interface have no escapes. -/
theorem escape_of_word {call : PlaneCall} {word : String} (h : .word word ∈ call.segments) :
    Url.escape Url.escapedInPath word.toList = word := by
  rw [(Url.isSimple_of_isAlphanum (isAlphanum_of_word h)).escape, String.ofList_toList]

/-- A call is plain if all of its segments are. -/
theorem isPlain_iff {call : PlaneCall} :
    call.IsPlain ↔ (∀ text ∈ call.texts, Url.IsPlain text) ∧ Url.EndsVisibly call.texts := by
  refine and_congr_left fun _ => ⟨fun h text htext => ?_, fun h name hname =>
    h _ (List.mem_map_of_mem hname)⟩
  obtain ⟨segment, hsegment, rfl⟩ := List.mem_map.1 htext
  cases segment with
  | word word => exact Url.isPlain_of_isAlphanum (isAlphanum_of_word hsegment)
  | name name => exact h name hsegment

/-- What is written for a segment stands for its text. -/
theorem standsFor_of_isWritten {call : PlaneCall} {segment : PathSegment}
    (hsegment : segment ∈ call.segments) {written : String} (h : segment.IsWritten written) :
    Url.StandsFor segment.text.toList written := by
  cases segment with
  | word word =>
    have hstands := (Url.isPlain_of_isAlphanum (isAlphanum_of_word hsegment)).standsFor
    rw [escape_of_word hsegment] at hstands
    cases h
    exact hstands
  | name name => exact h

/-- A plain segment is written with its escapes. -/
theorem isWritten_escape {call : PlaneCall} (h : call.IsPlain) {segment : PathSegment}
    (hsegment : segment ∈ call.segments) :
    segment.IsWritten (Url.escape Url.escapedInPath segment.text.toList) := by
  cases segment with
  | word word => exact escape_of_word hsegment
  | name name => exact (h.1 name hsegment).standsFor

/-- What is written for the segments of a call stands for their texts. -/
theorem forall₂_standsFor {call : PlaneCall} {names : List String}
    (h : List.Forall₂ PathSegment.IsWritten call.segments names) :
    List.Forall₂ Url.StandsFor call.texts names := by
  rw [texts, List.forall₂_map_left_iff]
  obtain ⟨hlength, hall⟩ := List.forall₂_iff_zip.1 h
  exact List.forall₂_iff_zip.2
    ⟨hlength, fun hpair => standsFor_of_isWritten (List.of_mem_zip hpair).1 (hall hpair)⟩

/-- The segments of a plain call are written with their escapes. -/
theorem IsPlain.forall₂_isWritten {call : PlaneCall} (h : call.IsPlain) :
    List.Forall₂ PathSegment.IsWritten call.segments
      (call.texts.map (Url.escape Url.escapedInPath)) := by
  rw [texts, List.map_map, List.forall₂_map_right_iff, List.forall₂_same]
  exact fun segment hsegment => isWritten_escape h hsegment

/-- Calls with the same texts have the same segments. -/
theorem segments_of_texts {call call' : PlaneCall} (h : call.texts = call'.texts) :
    call.segments = call'.segments := by
  cases call <;> cases call' <;>
    simp_all [texts, segments, resourceSegments, PathSegment.text, String.toList_inj]

/-- Under a base, the path of a call leads to what it is about exactly if the call is plain. -/
theorem addresses_iff_of_extend {call : PlaneCall} {base url : Url} {user : Option UserInfo}
    (hkind : SchemeKind.of base.scheme ≠ .file)
    (hurl : url = { base.extend call.path.toList.tail with user := user }) :
    call.Addresses base url ↔ call.IsPlain := by
  obtain ⟨text, texts, htexts⟩ := exists_texts_eq call
  have htail : call.path.toList.tail = text ++ Url.slashed texts := by
    rw [path_eq, htexts, Url.slashed_cons, List.tail_cons]
  rw [htail] at hurl
  subst hurl
  rw [isPlain_iff, htexts]
  constructor
  · rintro ⟨-, -, -, ⟨names, hpath, hwritten⟩, -, -⟩
    refine (Url.follow_standsFor_iff hkind base.path.directory.reverse).1 ⟨names, ?_, ?_⟩
    · rw [List.reverse_reverse]
      exact UrlPath.segments.inj hpath
    · rw [← htexts]
      exact forall₂_standsFor hwritten
  · rintro ⟨hplain, hends⟩
    have hafter := Url.dropWhile_inner_eq_nil (Url.pathText_of_plain hplain hends)
    have hcall : call.IsPlain := isPlain_iff.2 (by rw [htexts]; exact ⟨hplain, hends⟩)
    refine ⟨rfl, rfl, rfl, ⟨_, ?_, hcall.forall₂_isWritten⟩, ?_, ?_⟩
    · have hfollow :=
        Url.follow_of_plain hkind base.path.directory.reverse hplain hends
      rw [List.reverse_reverse] at hfollow
      rw [htexts]
      exact congrArg UrlPath.segments hfollow
    · change (Url.queryAndFragment true (List.dropWhile _ _)).1 = none
      rw [hafter]
      rfl
    · change (Url.queryAndFragment true (List.dropWhile _ _)).2 = none
      rw [hafter]
      rfl

end PlaneCall

/-! ## Clients -/

namespace PlaneClient

section

variable {client : PlaneClient} {call : PlaneCall} {base url : Url}

/-- The URL that the requests of a client go under: one of HTTP without query and fragment, whose
text ends in a character that counts and is no slash. -/
structure IsAt (client : PlaneClient) (base : Url) : Prop where
  reads : Url.parse client.base = .ok base
  scheme : base.scheme = "http" ∨ base.scheme = "https"
  query : base.query = none
  fragment : base.fragment = none
  endsOpen : Url.EndsOpen client.base.toList

/-- Whether a client can send requests to the host of a URL. -/
def CanSend (client : PlaneClient) (base : Url) : Prop :=
  hasHost base = true ∧ client.token.all isHeaderText = true ∧ isReachable base = true

theorem takeUser_fst (url : Url) : ∃ user, (takeUser url).1 = { url with user := user } := by
  unfold takeUser
  split
  · exact ⟨_, rfl⟩
  split
  · exact ⟨_, rfl⟩
  dsimp only
  split
  · exact ⟨_, rfl⟩
  · exact ⟨_, rfl⟩

theorem request_of_parse (h : Url.parse (client.base ++ call.path) = .ok url) :
    ((∃ request, client.request call = .ok request) ↔ client.CanSend url) ∧
      ∀ request, client.request call = .ok request →
        ∃ user, request.url = { url with user := user } := by
  obtain ⟨user, huser⟩ := takeUser_fst url
  have hreachable : isReachable (takeUser url).1 = isReachable url := by rw [huser]; rfl
  unfold request CanSend
  rw [h]
  dsimp only
  rw [hreachable]
  cases hasHost url <;> cases client.token.all isHeaderText <;> cases isReachable url <;>
    simp
  exact ⟨user, huser⟩

theorem exists_network (h : base.scheme = "http" ∨ base.scheme = "https") :
    ∃ port, SchemeKind.of base.scheme = .network port := by
  rcases h with hscheme | hscheme <;> rw [hscheme]
  · exact ⟨80, rfl⟩
  · exact ⟨443, rfl⟩

/-- The text of a request's URL is read as the base with the path of the call after it. -/
theorem IsAt.parse_call (h : client.IsAt base) (call : PlaneCall) :
    Url.parse (client.base ++ call.path) = .ok (base.extend call.path.toList.tail) := by
  obtain ⟨port, hkind⟩ := exists_network h.scheme
  obtain ⟨text, texts, htexts⟩ := call.exists_texts_eq
  have hpath : '/' :: call.path.toList.tail = call.path.toList := by
    rw [call.path_eq, htexts, Url.slashed_cons, List.tail_cons]
  have hparse := Url.parse_append h.endsOpen h.reads hkind h.query h.fragment call.path.toList.tail
  rwa [hpath, String.ofList_toList] at hparse

/-- The request of a call addresses what the call is about exactly if the call is plain. -/
theorem IsAt.addresses_iff (h : client.IsAt base) {request : PlaneRequest}
    (hrequest : client.request call = .ok request) :
    call.Addresses base request.url ↔ call.IsPlain := by
  obtain ⟨port, hkind⟩ := exists_network h.scheme
  obtain ⟨user, huser⟩ := (request_of_parse (h.parse_call call)).2 request hrequest
  exact PlaneCall.addresses_iff_of_extend (by rw [hkind]; exact nofun) huser

end

end PlaneClient

namespace PlaneCall

section

variable {call call' : PlaneCall} {base url : Url}

theorem Addresses.segments_eq (h : call.Addresses base url) (h' : call'.Addresses base url) :
    call.segments = call'.segments := by
  obtain ⟨names, hpath, hnames⟩ := h.path
  obtain ⟨names', hpath', hnames'⟩ := h'.path
  cases List.append_cancel_left (UrlPath.segments.inj (hpath.symm.trans hpath'))
  have hunique : Relator.LeftUnique Url.StandsFor := fun _ _ _ => Url.StandsFor.unique
  exact segments_of_texts
    (hunique.forall₂ (forall₂_standsFor hnames) (forall₂_standsFor hnames'))

/-- The owner is named in the fourth segment. -/
theorem exists_segments_eq (call : PlaneCall) :
    ∃ a b c rest, call.segments = a :: b :: c :: .name call.owner :: rest := by
  cases call <;> exact ⟨_, _, _, _, rfl⟩

theorem Addresses.owner_eq (h : call.Addresses base url) {names : List String}
    (hnames : url.path = .segments (base.path.directory ++ names)) {owner segment : String}
    (hsegment : names[3]? = some segment) (howner : Url.StandsFor owner.toList segment) :
    owner = call.owner := by
  obtain ⟨names', hpath, hwritten⟩ := h.path
  cases List.append_cancel_left (UrlPath.segments.inj (hnames.symm.trans hpath))
  obtain ⟨a, b, c, rest, heq⟩ := call.exists_segments_eq
  rw [heq] at hwritten
  rcases hwritten with _ | ⟨-, _ | ⟨-, _ | ⟨-, _ | ⟨hwritten, -⟩⟩⟩⟩
  cases hsegment
  exact String.toList_inj.1 (howner.unique hwritten)

end

end PlaneCall

/-- Where the requests of a client go. They are made if they can be sent to the host of the base.
Each addresses what its call is about exactly if the call is plain. Plain calls with the same URL
are about the same, and each stays with its own organization or namespace. -/
theorem PlaneClient.requests_addressed {client : PlaneClient} {base : Url}
    (h : client.IsAt base) :
    (∀ call, (∃ request, client.request call = .ok request) ↔ client.CanSend base) ∧
      (∀ call request, client.request call = .ok request →
        (call.Addresses base request.url ↔ call.IsPlain)) ∧
      (∀ call call' request request', client.request call = .ok request →
        client.request call' = .ok request' → call.IsPlain → call'.IsPlain →
          request.url = request'.url → call.segments = call'.segments) ∧
      (∀ call request, client.request call = .ok request → call.IsPlain →
        ∀ names owner segment, request.url.path = .segments (base.path.directory ++ names) →
          names[3]? = some segment → Url.StandsFor owner.toList segment → owner = call.owner) := by
  refine ⟨fun call => (request_of_parse (h.parse_call call)).1,
    fun call request => h.addresses_iff, ?_, ?_⟩
  · intro call call' request request' hrequest hrequest' hplain hplain' hurl
    have haddress := (h.addresses_iff hrequest).2 hplain
    rw [hurl] at haddress
    exact haddress.segments_eq ((h.addresses_iff hrequest').2 hplain')
  · intro call request hrequest hplain names owner segment hnames hsegment howner
    exact ((h.addresses_iff hrequest).2 hplain).owner_eq hnames hsegment howner

/-- A name with steps upwards in it leads from one organization into another: the request is that of
a call for the other, and does not address what its own call is about. -/
theorem PlaneClient.requests_addressed_climbing :
    let client : PlaneClient := ⟨"http://plane.test", none⟩
    let base : Url := ⟨"http", none, some (.name "plane.test"), none, .segments [""], none, none⟩
    let call := PlaneCall.environment "acme" "../../umbrella/environments/production"
    let other := PlaneCall.environment "umbrella" "production"
    client.IsAt base ∧ ∃ request, client.request call = .ok request ∧
      client.request other = .ok request ∧ ¬ call.Addresses base request.url ∧
        other.Addresses base request.url := by
  intro client base call other
  have hat : client.IsAt base := by
    refine ⟨?_, .inl rfl, rfl, rfl, "http://plane.tes".toList, 't', by decide +kernel, by decide,
      rfl⟩
    simp only [client, base]
    rfl
  have hclimbs : ¬ call.IsPlain := fun hplain => by
    have hslash := (hplain.1 "../../umbrella/environments/production" (by decide +kernel)).slash
    exact absurd (hslash '/' (by decide +kernel)) (by decide)
  have hstays : other.IsPlain := by
    refine ⟨fun name hname => Url.isPlain_of_isAlphanum ?_, fun text c htext hc => ?_⟩
    · have hname : name = "umbrella" ∨ name = "production" := by
        simpa [other, PlaneCall.segments] using hname
      rw [← List.all_eq_true]
      rcases hname with rfl | rfl <;> decide +kernel
    · cases htext
      have hlast : "production".toList.getLast? = some 'n' := by decide +kernel
      cases Option.some.inj (hc.symm.trans hlast)
      decide
  obtain ⟨request, hrequest, hrequest'⟩ : ∃ request, client.request call = .ok request ∧
      client.request other = .ok request := by
    refine ⟨⟨.get, { base with
      path := .segments ["api", "v1", "orgs", "umbrella", "environments", "production"] }, [],
      none⟩, ?_, ?_⟩ <;> simp only [client, call, other] <;> rfl
  obtain ⟨-, haddress, -, -⟩ := requests_addressed hat
  exact ⟨hat, request, hrequest, hrequest', fun h => hclimbs ((haddress _ _ hrequest).1 h),
    (haddress _ _ hrequest').2 hstays⟩

end TraceWatch
