import Mathlib.Data.List.DropRight
import ZcashSoloPool.JavaScript.Value
import ZcashSoloPool.Transition.Run

/-!
# The requests of the dashboard

The dashboard looks for the pool at several bases and under several paths, and
asks where it found one for what the answer lacks.  Reading a URL is the
browser's.
-/

namespace ZcashSoloPool.Dashboard

open ZcashSoloPool.JavaScript
open ZcashSoloPool.Transition

/-! ## The page -/

/-- What the browser makes of a URL. -/
structure Url where
  origin : Text
  hostname : Text
  /-- `fetch` sends requests there: the scheme is one of the web, and neither
  credentials nor the port or the content of the page forbid it. -/
  reachable : Bool
  deriving DecidableEq, Repr

/-- How the browser reads URLs on a page. -/
structure Browser where
  /-- `new URL(_, window.location.origin)`. -/
  parse : Text → Option Url
  /-- The URL of a `fetch`, read against the document. -/
  resolve : Text → Option Url

/-- The location of the page, and its configuration as texts. -/
structure Page where
  protocol : Text
  hostname : Text
  origin : Text
  /-- `new URL(location.href).searchParams.get("api")`. -/
  api : Option Text
  /-- `String(getDashboardConfig().apiBase || "")`. -/
  apiBase : Text
  /-- `String(getDashboardConfig().apiKey || "")`. -/
  apiKey : Text

/-- `replace(/\/$/, "")`. -/
def stripSlash (text : Text) : Text :=
  if text.getLast? = some '/' then text.dropLast else text

/-- `String(_).trim().replace(/\/$/, "")`. -/
def trimBase (value : Text) : Text :=
  stripSlash (trim value)

def getDefaultApiBase (page : Page) : Text :=
  trimBase page.apiBase

def getDefaultApiKey (page : Page) : Text :=
  trim page.apiKey

/-! ## The override -/

/-- The test `(1[6-9]|2\d|3[01])\.` at the front of a text. -/
def isPrivateOctet : Text → Bool
  | tens :: ones :: point :: _ =>
      point == '.' &&
        (tens == '1' && '6' ≤ ones && ones ≤ '9' || tens == '2' && ones.isDigit ||
          tens == '3' && (ones == '0' || ones == '1'))
  | _ => false

/-- The tests for the address blocks of private networks. -/
def isPrivateHost (host : Text) : Bool :=
  "10.".toList.isPrefixOf host ||
    ("172.".toList.isPrefixOf host && isPrivateOctet (host.drop 4)) ||
    "192.168.".toList.isPrefixOf host

def isAllowedApiOrigin (browser : Browser) (page : Page) (url : Text) : Bool :=
  if url.isEmpty then true
  else
    match browser.parse url with
    | none => false
    | some parsed =>
        if parsed.origin = page.origin then true
        else if parsed.hostname == "localhost".toList || parsed.hostname == "127.0.0.1".toList ||
            parsed.hostname == "::1".toList then true
        else if isPrivateHost parsed.hostname then true
        else
          let configBase := getDefaultApiBase page
          if configBase.isEmpty then false
          else
            match browser.parse configBase with
            | some config => parsed.origin == config.origin
            | none => false

def explicitApiBaseFromUI (browser : Browser) (page : Page) : Text :=
  match page.api.filter fun fromQuery => !fromQuery.isEmpty with
  | some fromQuery =>
      if isAllowedApiOrigin browser page fromQuery then trimBase fromQuery
      else getDefaultApiBase page
  | none => trimBase (getDefaultApiBase page)

/-! ## Endpoints -/

/-- `add` of `apiBaseCandidates`. -/
def add (candidates : List Text) (value : Text) : List Text :=
  let normalized := trimBase value
  if candidates.contains normalized then candidates else candidates ++ [normalized]

/-- The pool on its default port, on the host of the page. -/
def fallbackBase (page : Page) : Text :=
  "http://".toList ++ page.hostname ++ ":8085".toList

/-- The page is served without encryption by a host that has a name. -/
def Page.hasFallback (page : Page) : Bool :=
  !page.hostname.isEmpty && page.protocol == "http:".toList

def apiBaseCandidates (browser : Browser) (page : Page) : List Text :=
  let explicitBase := explicitApiBaseFromUI browser page
  let withExplicit := if explicitBase.isEmpty then [] else add [] explicitBase
  let withOrigin := add (add withExplicit []) page.origin
  if page.hasFallback then add withOrigin (fallbackBase page) else withOrigin

/-- `API_PATHS`. -/
def apiPaths : List Text :=
  ["/api/dashboard".toList, "/api/stats".toList, "/stats".toList, "/api/pool/stats".toList,
    "/api/pool_stats".toList]

structure Endpoint where
  base : Text
  path : Text
  url : Text
  deriving DecidableEq, Repr

def endpointCandidates (browser : Browser) (page : Page) : List Endpoint :=
  (apiBaseCandidates browser page).flatMap fun base =>
    apiPaths.map fun path => ⟨base, path, base ++ path⟩

def buildApiUrl (path base : Text) : Text :=
  trimBase base ++ path

/-! ## The key -/

/-- The key of a request, empty without one. -/
def shouldSendApiKey (browser : Browser) (page : Page) (endpoint : Text) : Text :=
  let key := getDefaultApiKey page
  if key.isEmpty then []
  else
    let explicitBase := explicitApiBaseFromUI browser page
    if explicitBase.isEmpty then key
    else
      match browser.parse endpoint, browser.parse explicitBase with
      | some endpointUrl, some baseUrl => if endpointUrl.origin = baseUrl.origin then key else []
      | _, _ => []

/-- A call of `fetch`, with the header `x-api-key` if there is one. -/
structure Request where
  endpoint : Text
  key : Option Text
  deriving DecidableEq, Repr

def fetchJson (browser : Browser) (page : Page) (endpoint : Text) : Request :=
  let key := shouldSendApiKey browser page endpoint
  ⟨endpoint, if key.isEmpty then none else some key⟩

/-- The value of a header; `fetch` throws on any other. -/
def isHeaderValue (text : Text) : Bool :=
  text.all fun c => c.toNat ≤ 0xff && c != '\u0000' && c != '\n' && c != '\r'

/-- Where a request goes, if `fetch` sends it. -/
def Request.sent (browser : Browser) (request : Request) : Option Url :=
  if request.key.all isHeaderValue then
    (browser.resolve request.endpoint).filter Url.reachable
  else none

/-! ## A refresh -/

/-- What the answer of an endpoint lacks. -/
structure Needs where
  miners : Bool
  network : Bool
  job : Bool

/-- A call of `fetchDashboardData` with the answers that it gets: of which
endpoints one can draw the dashboard, and which further paths answer. -/
structure Refresh where
  now : Nat
  draws : Endpoint → Bool
  needs : Needs
  supplies : Text → Bool

/-- `probeState`, and the requests so far, which the source does not keep. -/
structure Probe where
  lastGoodEndpoint : Option Endpoint
  lastProbeFailureAt : Nat
  requests : List Request

/-- `FAILED_PROBE_RETRY_MS`. -/
def failedProbeRetryMs : Int :=
  5 * 60000

def orderedEndpointCandidates (browser : Browser) (page : Page) (probe : Probe) : List Endpoint :=
  let candidates := endpointCandidates browser page
  match probe.lastGoodEndpoint with
  | none => candidates
  | some good => good :: candidates.filter fun candidate => candidate.url != good.url

/-- The endpoints that are asked, up to the first from which one can draw. -/
def asked (draws : Endpoint → Bool) : List Endpoint → List Endpoint
  | [] => []
  | endpoint :: rest => if draws endpoint then [endpoint] else endpoint :: asked draws rest

/-- A path below `/api`, and the bare one where that does not answer. -/
def optionalPaths (supplies : Text → Bool) (name : Text) : List Text :=
  let path := "/api".toList ++ name
  if supplies path then [path] else [path, name]

/-- The paths that `enrichWithSupplementalEndpoints` asks. -/
def supplementalPaths (refresh : Refresh) (endpoint : Endpoint) : List Text :=
  if endpoint.path = "/api/stats".toList ∨ endpoint.path = "/stats".toList then
    (if refresh.needs.miners then optionalPaths refresh.supplies "/miners".toList else []) ++
      (if refresh.needs.network then optionalPaths refresh.supplies "/network".toList else []) ++
      (if refresh.needs.job then optionalPaths refresh.supplies "/job".toList else []) ++
      optionalPaths refresh.supplies "/health".toList ++
      optionalPaths refresh.supplies "/ping-status".toList
  else []

/-- The last probe failed, and it is too early for the next. -/
def Probe.waits (probe : Probe) (now : Nat) : Bool :=
  probe.lastProbeFailureAt != 0 &&
    decide ((now : Int) - probe.lastProbeFailureAt < failedProbeRetryMs)

/-- `fetchDashboardData`. -/
def fetchDashboardData (browser : Browser) (page : Page) (probe : Probe) (refresh : Refresh) :
    Probe :=
  if (explicitApiBaseFromUI browser page).isEmpty && probe.waits refresh.now then probe
  else
    let ordered := orderedEndpointCandidates browser page probe
    let probes := (asked refresh.draws ordered).map fun endpoint =>
      fetchJson browser page (buildApiUrl endpoint.path endpoint.base)
    match ordered.find? refresh.draws with
    | some endpoint =>
        { lastGoodEndpoint := some endpoint
          lastProbeFailureAt := 0
          requests := probe.requests ++ probes ++
            (supplementalPaths refresh endpoint).map fun path =>
              fetchJson browser page (buildApiUrl path endpoint.base) }
    | none =>
        { probe with
          lastProbeFailureAt := refresh.now
          requests := probe.requests ++ probes }

/-- A page that was just loaded. -/
def Probe.initial : Probe :=
  ⟨none, 0, []⟩

/-- The page after the refreshes so far. -/
def refreshed (browser : Browser) (page : Page) (refreshes : List Refresh) : Probe :=
  refreshes.foldl (fetchDashboardData browser page) .initial

/-! ## What is trimmed -/

theorem trimBase_nil : trimBase [] = [] :=
  rfl

/-- Behind a text whose ends are neither blanks nor a slash, only the end of the
rest is trimmed. -/
theorem trimBase_append {first last : Char} (starts : isSpace first = false)
    (ends : isSpace last = false) (open' : last ≠ '/') (middle rest : Text) :
    ∃ kept, kept <+: rest ∧
      trimBase (first :: middle ++ [last] ++ rest) = first :: middle ++ [last] ++ kept := by
  have trimmed : trim (first :: middle ++ [last] ++ rest) =
      first :: middle ++ [last] ++ rest.rdropWhile isSpace := by
    have front : (first :: middle ++ [last] ++ rest).dropWhile isSpace =
        first :: middle ++ [last] ++ rest := by
      rw [List.cons_append, List.cons_append, List.dropWhile_cons_of_neg]
      rw [starts]
      exact Bool.false_ne_true
    have back : (first :: middle ++ [last]).reverse.dropWhile isSpace =
        (first :: middle ++ [last]).reverse := by
      rw [List.reverse_append, List.reverse_singleton, List.singleton_append,
        List.dropWhile_cons_of_neg]
      rw [ends]
      exact Bool.false_ne_true
    rw [trim, front, List.reverse_append, List.dropWhile_append, List.rdropWhile]
    split
    · next blank =>
        rw [back, List.reverse_reverse, List.isEmpty_iff.mp blank, List.reverse_nil,
          List.append_nil]
    · rw [List.reverse_append, List.reverse_reverse]
  have kept := List.rdropWhile_prefix isSpace rest
  rw [trimBase, trimmed, stripSlash]
  rcases List.eq_nil_or_concat (rest.rdropWhile isSpace) with empty | ⟨front, c, split⟩
  · refine ⟨[], List.nil_prefix, ?_⟩
    rw [empty, List.append_nil, List.getLast?_concat, if_neg]
    intro slash
    exact open' (Option.some.inj slash)
  · rw [split] at kept ⊢
    rw [List.concat_eq_append, ← List.append_assoc, List.getLast?_concat]
    by_cases slash : some c = some '/'
    · rw [if_pos slash, List.dropLast_concat]
      exact ⟨front, (List.prefix_append front [c]).trans (by rwa [← List.concat_eq_append]), rfl⟩
    · rw [if_neg slash, List.append_assoc]
      exact ⟨front ++ [c], by rwa [← List.concat_eq_append], rfl⟩

/-- Nothing is trimmed of the fallback. -/
theorem trimBase_fallbackBase (page : Page) : trimBase (fallbackBase page) = fallbackBase page := by
  have split : fallbackBase page = 'h' :: (['t', 't', 'p', ':', '/', '/'] ++ page.hostname ++
      [':', '8', '0', '8']) ++ ['5'] := by
    have port : [':', '8', '0', '8', '5'] = [':', '8', '0', '8'] ++ ['5'] := rfl
    have written : fallbackBase page = ['h', 't', 't', 'p', ':', '/', '/'] ++ page.hostname ++
      [':', '8', '0', '8', '5'] := rfl
    rw [written, port, ← List.append_assoc]
    rfl
  have starts : isSpace 'h' = false := by
    decide
  have ends : isSpace '5' = false := by
    decide
  obtain ⟨kept, nothing, trimmed⟩ := trimBase_append starts ends (by decide)
    (['t', 't', 'p', ':', '/', '/'] ++ page.hostname ++ [':', '8', '0', '8']) []
  rw [List.append_nil, List.prefix_nil.mp nothing, List.append_nil, ← split] at trimmed
  exact trimmed

/-! ## What is asked -/

theorem mem_add {candidates : List Text} {value base : Text} :
    base ∈ add candidates value ↔ base ∈ candidates ∨ base = trimBase value := by
  unfold add
  dsimp only
  split
  · next present =>
      constructor
      · exact Or.inl
      · rintro (member | rfl)
        · exact member
        · exact List.contains_iff_mem.mp present
  · rw [List.mem_append, List.mem_singleton]

theorem mem_apiBaseCandidates {browser : Browser} {page : Page} {base : Text} :
    base ∈ apiBaseCandidates browser page ↔
      (explicitApiBaseFromUI browser page ≠ [] ∧
          base = trimBase (explicitApiBaseFromUI browser page) ∨
        base = [] ∨ base = trimBase page.origin) ∨
        page.hasFallback = true ∧ base = trimBase (fallbackBase page) := by
  have listed : base ∈ (if (explicitApiBaseFromUI browser page).isEmpty then []
      else add [] (explicitApiBaseFromUI browser page)) ↔
        explicitApiBaseFromUI browser page ≠ [] ∧
          base = trimBase (explicitApiBaseFromUI browser page) := by
    by_cases empty : explicitApiBaseFromUI browser page = []
    · simp [empty]
    · rw [if_neg (by rwa [List.isEmpty_iff]), mem_add]
      simp [empty]
  unfold apiBaseCandidates
  dsimp only
  split
  · next present =>
      rw [mem_add, mem_add, mem_add, listed, trimBase_nil, or_assoc (b := base = [])]
      exact or_congr_right (iff_and_self.mpr fun _ => present)
  · next absent =>
      rw [mem_add, mem_add, listed, trimBase_nil, or_assoc]
      exact (or_iff_left fun fallback => absent fallback.1).symm

/-- The paths that the dashboard asks. -/
def allPaths : List Text :=
  apiPaths ++ optionalPaths (fun _ => false) "/miners".toList ++
    optionalPaths (fun _ => false) "/network".toList ++
    optionalPaths (fun _ => false) "/job".toList ++
    optionalPaths (fun _ => false) "/health".toList ++
    optionalPaths (fun _ => false) "/ping-status".toList

theorem mem_endpointCandidates {browser : Browser} {page : Page} {endpoint : Endpoint}
    (member : endpoint ∈ endpointCandidates browser page) :
    endpoint.base ∈ apiBaseCandidates browser page ∧ endpoint.path ∈ apiPaths := by
  obtain ⟨base, listed, here⟩ := List.mem_flatMap.mp member
  obtain ⟨path, asked, rfl⟩ := List.mem_map.mp here
  exact ⟨listed, asked⟩

theorem mem_optionalPaths {supplies : Text → Bool} {name path : Text}
    (member : path ∈ optionalPaths supplies name) : path ∈ optionalPaths (fun _ => false) name := by
  unfold optionalPaths at member ⊢
  dsimp only at member ⊢
  split at member
  · rw [List.mem_singleton.mp member]
    exact List.mem_cons_self
  · exact member

theorem mem_allPaths_of_supplemental {refresh : Refresh} {endpoint : Endpoint} {path : Text}
    (member : path ∈ supplementalPaths refresh endpoint) : path ∈ allPaths := by
  have optional : ∀ {needed : Bool} {name : Text},
      path ∈ (if needed then optionalPaths refresh.supplies name else []) →
        path ∈ optionalPaths (fun _ => false) name := by
    intro needed name present
    cases needed with
    | false => exact absurd present List.not_mem_nil
    | true => exact mem_optionalPaths present
  unfold supplementalPaths at member
  split at member
  · unfold allPaths
    simp only [List.mem_append] at member ⊢
    rcases member with (((miners | network) | job) | health) | ping
    · exact Or.inl (Or.inl (Or.inl (Or.inl (Or.inr (optional miners)))))
    · exact Or.inl (Or.inl (Or.inl (Or.inr (optional network))))
    · exact Or.inl (Or.inl (Or.inr (optional job)))
    · exact Or.inl (Or.inr (mem_optionalPaths health))
    · exact Or.inr (mem_optionalPaths ping)
  · exact absurd member List.not_mem_nil

theorem mem_of_mem_asked {draws : Endpoint → Bool} {endpoints : List Endpoint}
    {endpoint : Endpoint} (member : endpoint ∈ asked draws endpoints) : endpoint ∈ endpoints := by
  induction endpoints with
  | nil => exact member
  | cons first rest ih =>
      rw [asked] at member
      split at member
      · rw [List.mem_singleton.mp member]
        exact List.mem_cons_self
      · rcases List.mem_cons.mp member with rfl | later
        · exact List.mem_cons_self
        · exact List.mem_cons_of_mem _ (ih later)

theorem asked_of_none (endpoints : List Endpoint) :
    asked (fun _ => false) endpoints = endpoints := by
  induction endpoints with
  | nil => rfl
  | cons first rest ih => rw [asked, if_neg Bool.false_ne_true, ih]

/-- A request for a path below one of the bases. -/
def Asks (browser : Browser) (page : Page) (request : Request) : Prop :=
  ∃ base ∈ apiBaseCandidates browser page, ∃ path ∈ allPaths,
    request = fetchJson browser page (buildApiUrl path base)

/-- The dashboard comes back to a candidate, and asks only candidates. -/
structure Probe.Sound (browser : Browser) (page : Page) (probe : Probe) : Prop where
  good : ∀ endpoint, probe.lastGoodEndpoint = some endpoint →
    endpoint ∈ endpointCandidates browser page
  requests : ∀ request ∈ probe.requests, Asks browser page request

theorem Probe.Sound.mem_ordered {browser : Browser} {page : Page} {probe : Probe}
    (sound : probe.Sound browser page) {endpoint : Endpoint}
    (member : endpoint ∈ orderedEndpointCandidates browser page probe) :
    endpoint ∈ endpointCandidates browser page := by
  unfold orderedEndpointCandidates at member
  dsimp only at member
  split at member
  · exact member
  · next good known =>
      rcases List.mem_cons.mp member with rfl | other
      · exact sound.good _ known
      · exact List.mem_of_mem_filter other

/-- A refresh asks only candidates. -/
theorem Probe.Sound.fetchDashboardData {browser : Browser} {page : Page} {probe : Probe}
    (sound : probe.Sound browser page) (refresh : Refresh) :
    (fetchDashboardData browser page probe refresh).Sound browser page := by
  have probes : ∀ request ∈ (asked refresh.draws
      (orderedEndpointCandidates browser page probe)).map fun endpoint =>
        fetchJson browser page (buildApiUrl endpoint.path endpoint.base),
      Asks browser page request := by
    intro request member
    obtain ⟨endpoint, here, rfl⟩ := List.mem_map.mp member
    have candidate := mem_endpointCandidates (sound.mem_ordered (mem_of_mem_asked here))
    have path : endpoint.path ∈ allPaths := by
      unfold allPaths
      simp only [List.mem_append, candidate.2, true_or]
    exact ⟨endpoint.base, candidate.1, endpoint.path, path, rfl⟩
  unfold Dashboard.fetchDashboardData
  split
  · exact sound
  dsimp only
  split
  · next endpoint found =>
      have candidate := sound.mem_ordered (List.mem_of_find?_eq_some found)
      constructor
      · rintro _ ⟨⟩
        exact candidate
      · intro request member
        rcases List.mem_append.mp member with earlier | supplemental
        · rcases List.mem_append.mp earlier with earlier | probed
          · exact sound.requests request earlier
          · exact probes request probed
        · obtain ⟨path, here, rfl⟩ := List.mem_map.mp supplemental
          exact ⟨endpoint.base, (mem_endpointCandidates candidate).1, path,
            mem_allPaths_of_supplemental here, rfl⟩
  · constructor
    · exact sound.good
    · intro request member
      rcases List.mem_append.mp member with earlier | probed
      · exact sound.requests request earlier
      · exact probes request probed

/-- The dashboard asks only candidates. -/
theorem sound_refreshed (browser : Browser) (page : Page) (refreshes : List Refresh) :
    (refreshed browser page refreshes).Sound browser page := by
  apply foldl_invariant (fetchDashboardData browser page) (Probe.Sound browser page)
  · exact fun probe refresh sound => sound.fetchDashboardData refresh
  · constructor
    · intro endpoint known
      contradiction
    · intro request member
      exact absurd member List.not_mem_nil

/-- A refresh that finds nothing. -/
def Refresh.failing : Refresh :=
  ⟨0, fun _ => false, ⟨false, false, false⟩, fun _ => false⟩

/-- A first refresh that finds nothing asks all candidates. -/
theorem mem_requests_of_failing {browser : Browser} {page : Page} {base path : Text}
    (candidate : base ∈ apiBaseCandidates browser page) (asks : path ∈ apiPaths) :
    fetchJson browser page (buildApiUrl path base) ∈
      (refreshed browser page [.failing]).requests := by
  have endpoint : (⟨base, path, base ++ path⟩ : Endpoint) ∈ endpointCandidates browser page :=
    List.mem_flatMap.mpr ⟨base, candidate, List.mem_map.mpr ⟨path, asks, rfl⟩⟩
  have all : (refreshed browser page [.failing]).requests =
      (endpointCandidates browser page).map fun endpoint =>
        fetchJson browser page (buildApiUrl endpoint.path endpoint.base) := by
    have nothing : (endpointCandidates browser page).find? (fun _ => false) = none :=
      List.find?_eq_none.mpr fun _ _ => Bool.false_ne_true
    rw [refreshed, List.foldl_cons, List.foldl_nil, fetchDashboardData, Probe.initial]
    simp only [Probe.waits, bne_self_eq_false, Bool.false_and, Bool.and_false,
      Bool.false_eq_true, if_false, orderedEndpointCandidates, Refresh.failing, nothing,
      asked_of_none, List.nil_append]
  rw [all]
  exact List.mem_map.mpr ⟨_, endpoint, rfl⟩

end ZcashSoloPool.Dashboard
