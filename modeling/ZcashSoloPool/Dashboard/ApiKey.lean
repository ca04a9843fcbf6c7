import ZcashSoloPool.Dashboard.Endpoints
import ZcashSoloPool.Transition.Run
import ZcashSoloPool.Web.Ipv4

/-!
# Who receives the key

The key goes to the origin of the base that the page uses, and without a base
to every endpoint.  It stays with trusted hosts when that base is trusted as it
is used, and the fallback on the default port is trusted where it shares the
origin of the base or there is none.
-/

namespace ZcashSoloPool.Dashboard

open ZcashSoloPool.JavaScript
open ZcashSoloPool.Transition
open ZcashSoloPool.Web

/-! ## Trusted hosts -/

/-- The names and addresses of the host itself, and the private addresses. -/
def LocalHost (host : Text) : Prop :=
  host ∈ ["localhost".toList, "127.0.0.1".toList, "::1".toList, "[::1]".toList] ∨
    PrivateLiteral host

/-- The origin of the configured base. -/
def Configured (browser : Browser) (page : Page) (origin : Text) : Prop :=
  getDefaultApiBase page ≠ [] ∧
    ∃ url, browser.parse (getDefaultApiBase page) = some url ∧ url.origin = origin

def Trusted (browser : Browser) (page : Page) (url : Url) : Prop :=
  url.origin = page.origin ∨ Configured browser page url.origin ∨ LocalHost url.hostname

/-- A request with the key goes to a trusted host, if it is sent. -/
def Confined (browser : Browser) (page : Page) (request : Request) : Prop :=
  request.key ≠ none → ∀ url, request.sent browser = some url → Trusted browser page url

/-! ## Private hosts -/

theorem isPrivateOctet_append {front : Text} (long : 3 ≤ front.length) (rest : Text) :
    isPrivateOctet (front ++ rest) = isPrivateOctet front := by
  rcases front with _ | ⟨tens, _ | ⟨ones, _ | ⟨point, front⟩⟩⟩
  · contradiction
  · contradiction
  · contradiction
  · rfl

/-- Behind one digit the point comes too early. -/
theorem isPrivateOctet_of_digit (c : Char) (rest : Text) :
    isPrivateOctet (c :: '.' :: rest) = false := by
  cases rest with
  | nil => rfl
  | cons d rest =>
      have early : isPrivateOctet (c :: '.' :: d :: rest) =
          (d == '.' && (c == '1' && false && true || c == '2' && false || c == '3' && false)) := rfl
      rw [early]
      simp

theorem length_decimal_of_lt (octet : Fin 256) (small : octet < 10) :
    (decimal octet).length = 1 := by
  have below : (octet : Nat) < 10 := small
  rw [decimal, Nat.toDigits_of_lt_base below, List.length_singleton]

theorem isPrivateOctet_pointed_nil : ∀ octet : Fin 256, 10 ≤ octet →
    3 ≤ (pointed (decimal octet) []).length ∧
      (isPrivateOctet (pointed (decimal octet) []) = true ↔ 16 ≤ octet ∧ octet ≤ 31) := by
  decide +kernel

theorem isPrivateOctet_pointed_iff (octet : Fin 256) (rest : Text) :
    isPrivateOctet (pointed (decimal octet) rest) = true ↔ 16 ≤ octet ∧ octet ≤ 31 := by
  by_cases small : octet < 10
  · obtain ⟨c, single⟩ := List.length_eq_one_iff.mp (length_decimal_of_lt octet small)
    have early : isPrivateOctet (pointed (decimal octet) rest) = false := by
      rw [single]
      exact isPrivateOctet_of_digit c rest
    rw [early]
    constructor
    · intro impossible
      contradiction
    · rintro ⟨above, _⟩
      exact absurd (lt_of_lt_of_le small (by decide)) (not_lt.mpr above)
  · obtain ⟨long, decided⟩ := isPrivateOctet_pointed_nil octet (not_lt.mp small)
    have split : pointed (decimal octet) rest = pointed (decimal octet) [] ++ rest := by
      simp [pointed]
    rw [split, isPrivateOctet_append long, decided]

theorem decimal_eq_iff : ∀ octet : Fin 256,
    ("10".toList = decimal octet ↔ octet = 10) ∧ ("172".toList = decimal octet ↔ octet = 172) ∧
      ("192".toList = decimal octet ↔ octet = 192) ∧
        ("168".toList = decimal octet ↔ octet = 168) := by
  decide +kernel

/-- On literal addresses the tests find the private blocks. -/
theorem isPrivateHost_text_iff (address : Ipv4) :
    isPrivateHost address.text = true ↔ address.Private := by
  have ten : "10.".toList <+: address.text ↔ address.first = 10 := by
    have front : "10.".toList = pointed "10".toList [] := rfl
    rw [front, address.first_of_isPrefix (by decide), (decimal_eq_iff _).1]
    exact and_iff_left List.nil_prefix
  have first172 : "172.".toList <+: address.text ↔ address.first = 172 := by
    have front : "172.".toList = pointed "172".toList [] := rfl
    rw [front, address.first_of_isPrefix (by decide), (decimal_eq_iff _).2.1]
    exact and_iff_left List.nil_prefix
  have first192 : "192.168.".toList <+: address.text ↔
      address.first = 192 ∧ address.second = 168 := by
    have front : "192.168.".toList = pointed "192".toList (pointed "168".toList []) := rfl
    rw [front, address.first_of_isPrefix (by decide),
      pointed_isPrefix_iff (by decide) (point_not_mem_decimal _), (decimal_eq_iff _).2.2.1,
      (decimal_eq_iff _).2.2.2]
    exact and_congr_right fun _ => and_iff_left List.nil_prefix
  have second : address.first = 172 → (isPrivateOctet (address.text.drop 4) = true ↔
      16 ≤ address.second ∧ address.second ≤ 31) := by
    intro first
    have front : address.text.drop 4 = pointed (decimal address.second)
        (pointed (decimal address.third) (decimal address.fourth)) := by
      rw [Ipv4.text, ← (decimal_eq_iff _).2.1.mpr first]
      rfl
    rw [front, isPrivateOctet_pointed_iff]
  unfold isPrivateHost Ipv4.Private
  rw [Bool.or_eq_true, Bool.or_eq_true, Bool.and_eq_true, List.isPrefixOf_iff_prefix,
    List.isPrefixOf_iff_prefix, List.isPrefixOf_iff_prefix, ten, first172, first192, or_assoc]
  exact or_congr_right (or_congr_left (and_congr_right second))

/-! ## What the override lets pass -/

/-- A name that passes the tests for private addresses. -/
def Disguised (host : Text) : Prop :=
  isPrivateHost host = true ∧ ¬PrivateLiteral host

/-- The comparison with the origin of the configured base. -/
theorem configured_iff (browser : Browser) (page : Page) (origin : Text) :
    (if (getDefaultApiBase page).isEmpty then false
      else
        match browser.parse (getDefaultApiBase page) with
        | some config => origin == config.origin
        | none => false) = true ↔ Configured browser page origin := by
  unfold Configured
  by_cases empty : getDefaultApiBase page = []
  · rw [empty]
    simp
  · rw [if_neg (by rwa [List.isEmpty_iff])]
    cases browser.parse (getDefaultApiBase page) with
    | none => simp
    | some config =>
        simp only [beq_iff_eq, Option.some.injEq, exists_eq_left', empty, ne_eq, not_false_eq_true,
          true_and]
        exact eq_comm

theorem localHost_or_disguised_iff {host : Text} (named : host ≠ "[::1]".toList) :
    LocalHost host ∨ Disguised host ↔
      host ∈ ["localhost".toList, "127.0.0.1".toList, "::1".toList] ∨
        isPrivateHost host = true := by
  constructor
  · rintro ((listed | ⟨address, isPrivate, rfl⟩) | ⟨passes, _⟩)
    · rcases List.mem_append.mp (show host ∈ ["localhost".toList, "127.0.0.1".toList,
          "::1".toList] ++ ["[::1]".toList] from listed) with listed | same
      · exact Or.inl listed
      · exact absurd (List.mem_singleton.mp same) named
    · exact Or.inr ((isPrivateHost_text_iff address).mpr isPrivate)
    · exact Or.inr passes
  · rintro (listed | passes)
    · exact Or.inl (Or.inl (List.mem_append_left ["[::1]".toList] listed))
    · by_cases literal : PrivateLiteral host
      · exact Or.inl (Or.inr literal)
      · exact Or.inr ⟨passes, literal⟩

/-- An override passes that is trusted, or whose host has such a name. -/
theorem isAllowedApiOrigin_iff {browser : Browser} {page : Page} {url : Text} {parsed : Url}
    (nonempty : url ≠ []) (read : browser.parse url = some parsed)
    (named : parsed.hostname ≠ "[::1]".toList) :
    isAllowedApiOrigin browser page url = true ↔
      Trusted browser page parsed ∨ Disguised parsed.hostname := by
  unfold isAllowedApiOrigin
  rw [if_neg (by rwa [List.isEmpty_iff]), read]
  dsimp only
  rw [Trusted, or_assoc, or_assoc, localHost_or_disguised_iff named]
  by_cases same : parsed.origin = page.origin
  · rw [if_pos same]
    exact iff_of_true rfl (Or.inl same)
  rw [if_neg same]
  have names : (parsed.hostname == "localhost".toList || parsed.hostname == "127.0.0.1".toList ||
      parsed.hostname == "::1".toList) = true ↔
        parsed.hostname ∈ ["localhost".toList, "127.0.0.1".toList, "::1".toList] := by
    simp only [Bool.or_eq_true, beq_iff_eq, List.mem_cons, List.not_mem_nil, or_false, or_assoc]
  by_cases listed : parsed.hostname ∈ ["localhost".toList, "127.0.0.1".toList, "::1".toList]
  · rw [if_pos (names.mpr listed)]
    exact iff_of_true rfl (Or.inr (Or.inr (Or.inl listed)))
  rw [if_neg fun named => listed (names.mp named)]
  by_cases isPrivate : isPrivateHost parsed.hostname = true
  · rw [if_pos isPrivate]
    exact iff_of_true rfl (Or.inr (Or.inr (Or.inr isPrivate)))
  rw [if_neg isPrivate]
  refine (configured_iff browser page parsed.origin).trans ?_
  simp only [same, listed, isPrivate, Bool.false_eq_true, false_or, or_false]

theorem not_disguised_of_localHost {host : Text} (isLocal : LocalHost host) : ¬Disguised host := by
  rintro ⟨passes, notLiteral⟩
  rcases isLocal with listed | literal
  · have plain : ∀ name ∈ ["localhost".toList, "127.0.0.1".toList, "::1".toList,
        "[::1]".toList], isPrivateHost name = false := by
      decide
    rw [plain host listed] at passes
    contradiction
  · exact notLiteral literal

/-- An override that passes is trusted unless its host is disguised. -/
theorem trusted_iff_of_isAllowedApiOrigin {browser : Browser} {page : Page} {url : Text}
    {parsed : Url} (nonempty : url ≠ []) (read : browser.parse url = some parsed)
    (allowed : isAllowedApiOrigin browser page url = true) :
    Trusted browser page parsed ↔ parsed.origin = page.origin ∨
      Configured browser page parsed.origin ∨ ¬Disguised parsed.hostname := by
  constructor
  · rintro (same | configured | isLocal)
    · exact Or.inl same
    · exact Or.inr (Or.inl configured)
    · exact Or.inr (Or.inr (not_disguised_of_localHost isLocal))
  · rintro (same | configured | plain)
    · exact Or.inl same
    · exact Or.inr (Or.inl configured)
    · by_cases named : parsed.hostname = "[::1]".toList
      · refine Or.inr (Or.inr (Or.inl ?_))
        rw [named]
        exact List.mem_append_right ["localhost".toList, "127.0.0.1".toList, "::1".toList]
          (List.mem_singleton_self _)
      · exact ((isAllowedApiOrigin_iff nonempty read named).mp allowed).resolve_right plain

/-! ## Where the key goes -/

/-- The URL of the fallback. -/
def fallbackUrl (page : Page) : Url :=
  ⟨fallbackBase page, page.hostname, true⟩

/-- How browsers read the URLs of the dashboard. -/
structure Documented (browser : Browser) (page : Page) : Prop where
  /-- What is read against the origin of the page is read against the document
  the same way. -/
  resolves : ∀ text url, browser.parse text = some url → browser.resolve text = some url
  /-- A path is one of the page's own server. -/
  path : ∀ path ∈ allPaths, ∀ url, browser.resolve path = some url → url.origin = page.origin
  originPath : ∀ path ∈ allPaths, ∀ url, browser.resolve (page.origin ++ path) = some url →
    url.origin = page.origin
  /-- The text of an origin ends neither in a slash nor in a blank. -/
  originText : trimBase page.origin = page.origin
  /-- A blank or a slash at the end of the URL of another server changes nothing
  before its path, nor does a longer path. -/
  trimmed : ∀ text url, browser.parse text = some url → url.reachable = true →
    url.origin ≠ page.origin → browser.parse (trimBase text) = some url
  extended : ∀ text url, browser.parse text = some url → url.reachable = true →
    url.origin ≠ page.origin → ∀ path ∈ allPaths, browser.parse (buildApiUrl path text) = some url
  /-- Nor do they make requests possible that were not. -/
  unreachable : ∀ text url, browser.parse text = some url → url.reachable = false →
    ∀ path ∈ allPaths, ∀ sent, browser.parse (buildApiUrl path (trimBase text)) = some sent →
      sent.reachable = false
  /-- A host with a port is its own origin. -/
  fallback : page.hasFallback = true → ∀ path ∈ allPaths,
    browser.parse (fallbackBase page ++ path) = some (fallbackUrl page)

/-- The base is trusted when it is used, and so is the fallback where it gets the
key with it. -/
structure SafeBase (browser : Browser) (page : Page) (base : Text) : Prop where
  own : ∀ url, base ≠ [] → browser.parse base = some url → url.reachable = true →
    Trusted browser page url
  fallback : page.hasFallback = true →
    (base = [] ∨ ∃ url, browser.parse base = some url ∧ url.origin = fallbackBase page) →
      Trusted browser page (fallbackUrl page)

/-- There is no key that can be sent; or the base is safe that the page uses: an
allowed override as it is trimmed, and the configured base otherwise. -/
def Guarded (browser : Browser) (page : Page) : Prop :=
  getDefaultApiKey page = [] ∨ isHeaderValue (getDefaultApiKey page) = false ∨
    match page.api.filter fun fromQuery => !fromQuery.isEmpty with
    | some fromQuery =>
        if isAllowedApiOrigin browser page fromQuery then
          SafeBase browser page (trimBase fromQuery)
        else SafeBase browser page (getDefaultApiBase page)
    | none => SafeBase browser page (trimBase (getDefaultApiBase page))

theorem guarded_iff (browser : Browser) (page : Page) :
    Guarded browser page ↔ getDefaultApiKey page = [] ∨
      isHeaderValue (getDefaultApiKey page) = false ∨
        SafeBase browser page (explicitApiBaseFromUI browser page) := by
  unfold Guarded explicitApiBaseFromUI
  cases page.api.filter fun fromQuery => !fromQuery.isEmpty with
  | none => exact Iff.rfl
  | some fromQuery =>
      dsimp only
      split
      · exact Iff.rfl
      · exact Iff.rfl

/-! ## The requests with the key -/

/-- The key is sent without a base, or to the origin of the base. -/
def KeyGoes (browser : Browser) (page : Page) (endpoint : Text) : Prop :=
  explicitApiBaseFromUI browser page = [] ∨
    ∃ endpointUrl baseUrl, browser.parse endpoint = some endpointUrl ∧
      browser.parse (explicitApiBaseFromUI browser page) = some baseUrl ∧
        endpointUrl.origin = baseUrl.origin

theorem shouldSendApiKey_of_goes {browser : Browser} {page : Page} {endpoint : Text}
    (goes : KeyGoes browser page endpoint) :
    shouldSendApiKey browser page endpoint = getDefaultApiKey page := by
  unfold shouldSendApiKey
  dsimp only
  by_cases keyless : getDefaultApiKey page = []
  · rw [keyless]
    rfl
  rw [if_neg (by rwa [List.isEmpty_iff])]
  rcases goes with empty | ⟨endpointUrl, baseUrl, endpointRead, baseRead, same⟩
  · rw [empty]
    rfl
  · split
    · rfl
    · rw [endpointRead, baseRead]
      exact if_pos same

theorem shouldSendApiKey_of_not_goes {browser : Browser} {page : Page} {endpoint : Text}
    (stays : ¬KeyGoes browser page endpoint) : shouldSendApiKey browser page endpoint = [] := by
  unfold shouldSendApiKey
  dsimp only
  split
  · rfl
  rw [if_neg fun empty => stays (Or.inl (List.isEmpty_iff.mp empty))]
  split
  · next endpointUrl baseUrl endpointRead baseRead =>
      exact if_neg fun same => stays (Or.inr ⟨endpointUrl, baseUrl, endpointRead, baseRead, same⟩)
  · rfl

theorem key_fetchJson (browser : Browser) (page : Page) (endpoint : Text) :
    (fetchJson browser page endpoint).key ≠ none ↔
      getDefaultApiKey page ≠ [] ∧ KeyGoes browser page endpoint := by
  unfold fetchJson
  dsimp only
  by_cases goes : KeyGoes browser page endpoint
  · rw [shouldSendApiKey_of_goes goes]
    by_cases keyless : getDefaultApiKey page = []
    · simp [keyless]
    · simp [keyless, goes]
  · rw [shouldSendApiKey_of_not_goes goes]
    simp [goes]

theorem sent_eq_some_iff {browser : Browser} {page : Page} {endpoint : Text} {url : Url}
    (keyed : (fetchJson browser page endpoint).key ≠ none) :
    (fetchJson browser page endpoint).sent browser = some url ↔
      isHeaderValue (getDefaultApiKey page) = true ∧ browser.resolve endpoint = some url ∧
        url.reachable = true := by
  obtain ⟨key, goes⟩ := (key_fetchJson browser page endpoint).mp keyed
  have sends : fetchJson browser page endpoint = ⟨endpoint, some (getDefaultApiKey page)⟩ := by
    rw [fetchJson, shouldSendApiKey_of_goes goes, if_neg (by rwa [List.isEmpty_iff])]
  rw [sends, Request.sent, Option.all_some]
  by_cases header : isHeaderValue (getDefaultApiKey page) = true
  · rw [if_pos header, Option.filter_eq_some_iff]
    exact (and_iff_right header).symm
  · rw [if_neg header]
    constructor
    · intro impossible
      contradiction
    · exact fun ⟨valid, _⟩ => absurd valid header

section Keyed

variable {browser : Browser} {page : Page}

/-- With a safe base a request with the key goes to a trusted host. -/
theorem confined_of_safeBase (documented : Documented browser page)
    (safe : SafeBase browser page (explicitApiBaseFromUI browser page)) {request : Request}
    (asks : Asks browser page request) : Confined browser page request := by
  obtain ⟨base, candidate, path, asked, rfl⟩ := asks
  intro keyed url sent
  obtain ⟨_, resolved, reachable⟩ := (sent_eq_some_iff keyed).mp sent
  obtain ⟨_, goes⟩ := (key_fetchJson browser page _).mp keyed
  rcases mem_apiBaseCandidates.mp candidate with
    (⟨explicit, rfl⟩ | rfl | rfl) | ⟨hasFallback, rfl⟩
  · obtain empty | ⟨endpointUrl, baseUrl, endpointRead, baseRead, same⟩ := goes
    · exact absurd empty explicit
    obtain rfl : endpointUrl = url :=
      Option.some.inj ((documented.resolves _ _ endpointRead).symm.trans resolved)
    by_cases home : baseUrl.origin = page.origin
    · exact Or.inl (same.trans home)
    cases usable : baseUrl.reachable with
    | true =>
        have trimmed := documented.trimmed _ _ baseRead usable home
        have extended := documented.extended _ _ trimmed usable home path asked
        obtain rfl : baseUrl = endpointUrl := Option.some.inj (extended.symm.trans endpointRead)
        exact safe.own baseUrl explicit baseRead usable
    | false =>
        have not := documented.unreachable _ _ baseRead usable path asked _ endpointRead
        rw [not] at reachable
        contradiction
  · exact Or.inl (documented.path path asked url resolved)
  · rw [buildApiUrl, documented.originText, documented.originText] at resolved
    exact Or.inl (documented.originPath path asked url resolved)
  · rw [buildApiUrl, trimBase_fallbackBase, trimBase_fallbackBase] at resolved goes
    have read := documented.fallback hasFallback path asked
    obtain rfl : fallbackUrl page = url :=
      Option.some.inj ((documented.resolves _ _ read).symm.trans resolved)
    apply safe.fallback hasFallback
    rcases goes with empty | ⟨endpointUrl, baseUrl, endpointRead, baseRead, same⟩
    · exact Or.inl empty
    · obtain rfl : fallbackUrl page = endpointUrl := Option.some.inj (read.symm.trans endpointRead)
      exact Or.inr ⟨baseUrl, baseRead, same.symm⟩

/-- When the first requests with the key go to trusted hosts, the base is safe. -/
theorem safeBase_of_confined (documented : Documented browser page)
    (key : getDefaultApiKey page ≠ []) (header : isHeaderValue (getDefaultApiKey page) = true)
    (confined : ∀ request ∈ (refreshed browser page [.failing]).requests,
      Confined browser page request) :
    SafeBase browser page (explicitApiBaseFromUI browser page) := by
  have asked : "/api/dashboard".toList ∈ apiPaths := List.mem_cons_self
  have known : "/api/dashboard".toList ∈ allPaths := by
    decide
  have trusted : ∀ {base : Text} {url : Url}, base ∈ apiBaseCandidates browser page →
      KeyGoes browser page (buildApiUrl "/api/dashboard".toList base) →
      browser.parse (buildApiUrl "/api/dashboard".toList base) = some url →
      url.reachable = true → Trusted browser page url := by
    intro base url candidate goes read reachable
    have keyed := (key_fetchJson browser page _).mpr ⟨key, goes⟩
    exact confined _ (mem_requests_of_failing candidate asked) keyed url
      ((sent_eq_some_iff keyed).mpr ⟨header, documented.resolves _ _ read, reachable⟩)
  constructor
  · intro url explicit read reachable
    by_cases home : url.origin = page.origin
    · exact Or.inl home
    have trimmed := documented.trimmed _ _ read reachable home
    have extended := documented.extended _ _ trimmed reachable home _ known
    apply trusted (mem_apiBaseCandidates.mpr (Or.inl (Or.inl ⟨explicit, rfl⟩))) _ extended reachable
    exact Or.inr ⟨url, url, extended, read, rfl⟩
  · intro hasFallback shares
    have read := documented.fallback hasFallback _ known
    rw [← trimBase_fallbackBase, ← trimBase_fallbackBase] at read
    apply trusted (mem_apiBaseCandidates.mpr (Or.inr ⟨hasFallback, rfl⟩)) _ read rfl
    rcases shares with empty | ⟨url, baseRead, same⟩
    · exact Or.inl empty
    · exact Or.inr ⟨fallbackUrl page, url, read, baseRead, same.symm⟩

end Keyed

/-- Every request with the key goes to a trusted host exactly when the base of the
page is guarded. -/
theorem confined_iff_guarded {browser : Browser} {page : Page}
    (documented : Documented browser page) :
    (∀ refreshes, ∀ request ∈ (refreshed browser page refreshes).requests,
        Confined browser page request) ↔ Guarded browser page := by
  rw [guarded_iff]
  constructor
  · intro confined
    by_cases key : getDefaultApiKey page = []
    · exact Or.inl key
    cases header : isHeaderValue (getDefaultApiKey page) with
    | false => exact Or.inr (Or.inl rfl)
    | true => exact Or.inr (Or.inr (safeBase_of_confined documented key header (confined _)))
  · intro guarded refreshes request member
    have asks := (sound_refreshed browser page refreshes).requests request member
    rcases guarded with keyless | invalid | safe
    · obtain ⟨_, _, _, _, rfl⟩ := asks
      intro keyed
      exact absurd keyless ((key_fetchJson browser page _).mp keyed).1
    · obtain ⟨_, _, _, _, rfl⟩ := asks
      intro keyed url sent
      rw [sent_eq_some_iff keyed, invalid] at sent
      exact absurd sent.1 Bool.false_ne_true
    · exact confined_of_safeBase documented safe asks

/-! ## A name that looks like a private address -/

/-- A page without a configured base, opened through a link. -/
def pageExample : Page where
  protocol := "https:".toList
  hostname := "pool.example".toList
  origin := "https://pool.example".toList
  api := some "https://10.evil.com".toList
  apiBase := []
  apiKey := "secret".toList

/-- The server that the link names. -/
def linkedUrl : Url :=
  ⟨"https://10.evil.com".toList, "10.evil.com".toList, true⟩

/-- The server of the page. -/
def pageUrl : Url :=
  ⟨"https://pool.example".toList, "pool.example".toList, true⟩

/-- The text is the origin alone, or with a path. -/
def isAt (origin text : Text) : Bool :=
  origin.isPrefixOf text && (text.drop origin.length).head?.all fun c => c == '/'

/-- A browser that tells the URLs of the linked server, written without blanks, from
those of the page. -/
def readExample (text : Text) : Option Url :=
  if isAt linkedUrl.origin text then some linkedUrl else some pageUrl

def browserExample : Browser :=
  ⟨readExample, readExample⟩

theorem isAt_iff {origin text : Text} :
    isAt origin text = true ↔
      ∃ rest : Text, text = origin ++ rest ∧ ∀ c, rest.head? = some c → c = '/' := by
  rw [isAt, Bool.and_eq_true, List.isPrefixOf_iff_prefix]
  constructor
  · rintro ⟨⟨rest, rfl⟩, all⟩
    rw [List.drop_left] at all
    refine ⟨rest, rfl, fun c here => ?_⟩
    rw [here] at all
    exact beq_iff_eq.mp all
  · rintro ⟨rest, rfl, slash⟩
    rw [List.drop_left]
    refine ⟨List.prefix_append _ _, ?_⟩
    cases here : rest.head? with
    | none => rfl
    | some c => exact beq_iff_eq.mpr (slash c here)

/-- Only the path of the linked server is trimmed. -/
theorem isAt_trimBase {text : Text} (linked : isAt linkedUrl.origin text = true) :
    isAt linkedUrl.origin (trimBase text) = true := by
  obtain ⟨rest, rfl, slash⟩ := isAt_iff.mp linked
  have starts : isSpace 'h' = false := by
    decide
  have ends : isSpace 'm' = false := by
    decide
  obtain ⟨kept, ⟨cut, rfl⟩, trimmed⟩ := trimBase_append starts ends (by decide)
    "ttps://10.evil.co".toList rest
  refine isAt_iff.mpr ⟨kept, trimmed, fun c here => slash c ?_⟩
  rw [List.head?_append, here, Option.some_or]

theorem isAt_append {text path : Text} (linked : isAt linkedUrl.origin text = true)
    (slash : path.head? = some '/') : isAt linkedUrl.origin (text ++ path) = true := by
  obtain ⟨rest, rfl, front⟩ := isAt_iff.mp linked
  refine isAt_iff.mpr ⟨rest ++ path, List.append_assoc _ _ _, fun c here => ?_⟩
  rw [List.head?_append] at here
  cases first : rest.head? with
  | none =>
      rw [first, slash] at here
      exact (Option.some.inj here).symm
  | some d =>
      rw [first] at here
      exact front c (first.trans here)

theorem readExample_of_other {text : Text} {url : Url} (read : readExample text = some url)
    (other : url.origin ≠ pageExample.origin) :
    isAt linkedUrl.origin text = true ∧ url = linkedUrl := by
  rw [readExample] at read
  split at read
  · next linked => exact ⟨linked, (Option.some.inj read).symm⟩
  · cases read
    exact absurd rfl other

theorem readExample_of_isAt {text : Text} (linked : isAt linkedUrl.origin text = true) :
    readExample text = some linkedUrl :=
  if_pos linked

theorem slash_of_mem_allPaths : ∀ path ∈ allPaths, path.head? = some '/' := by
  decide

/-- No path of the page is one of the linked server. -/
theorem isAt_page : ∀ path ∈ allPaths, isAt linkedUrl.origin path = false ∧
    isAt linkedUrl.origin (pageExample.origin ++ path) = false := by
  decide +kernel

theorem origin_of_not_isAt {text : Text} {url : Url} (read : readExample text = some url)
    (other : isAt linkedUrl.origin text = false) : url.origin = pageExample.origin := by
  rw [readExample, if_neg (by rw [other]; exact Bool.false_ne_true)] at read
  cases read
  rfl

theorem documented_example : Documented browserExample pageExample := by
  constructor
  · exact fun _ _ read => read
  · exact fun path member url read => origin_of_not_isAt read (isAt_page path member).1
  · intro path member url read
    change readExample (pageExample.origin ++ path) = some url at read
    exact origin_of_not_isAt read (isAt_page path member).2
  · decide
  · intro text url read _ other
    obtain ⟨linked, rfl⟩ := readExample_of_other read other
    exact readExample_of_isAt (isAt_trimBase linked)
  · intro text url read _ other path member
    obtain ⟨linked, rfl⟩ := readExample_of_other read other
    exact readExample_of_isAt
      (isAt_append (isAt_trimBase linked) (slash_of_mem_allPaths path member))
  · intro text url read unreachable
    have reachable : url.reachable = true := by
      change readExample text = some url at read
      unfold readExample at read
      split at read
      · cases read
        rfl
      · cases read
        rfl
    rw [unreachable] at reachable
    contradiction
  · intro hasFallback
    contradiction

theorem not_trusted_linkedUrl : ¬Trusted browserExample pageExample linkedUrl := by
  rintro (same | ⟨configured, _⟩ | listed | literal)
  · revert same
    decide
  · exact configured rfl
  · revert listed
    decide
  · have letter : 'e' ∈ linkedUrl.hostname := by
      decide
    exact not_privateLiteral_of_mem letter (by decide) (by decide) literal

/-- The page sends its key to the server of the link. -/
theorem not_confined_example :
    ¬∀ (browser : Browser) (page : Page), Documented browser page →
      ∀ refreshes, ∀ request ∈ (refreshed browser page refreshes).requests,
        Confined browser page request := by
  intro confined
  have explicit : explicitApiBaseFromUI browserExample pageExample = linkedUrl.origin := by
    decide
  have safe := safeBase_of_confined documented_example (by decide) (by decide)
    (confined browserExample pageExample documented_example _)
  rw [explicit] at safe
  exact not_trusted_linkedUrl (safe.own linkedUrl (by decide) (by decide) rfl)

theorem confined_iff_guarded_example :
    (∀ refreshes, ∀ request ∈ (refreshed browserExample pageExample refreshes).requests,
        Confined browserExample pageExample request) ↔ Guarded browserExample pageExample :=
  confined_iff_guarded documented_example

end ZcashSoloPool.Dashboard
