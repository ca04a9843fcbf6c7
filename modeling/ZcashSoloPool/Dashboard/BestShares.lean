import ZcashSoloPool.Dashboard.MinerTable

/-!
# The best shares

The dashboard makes a short list of the best shares from the rows of the sorted
table.  For the miners of the pool these are the five best shares, as far as the
leading digits tell them apart, whatever the table is sorted by.
-/

namespace ZcashSoloPool.Dashboard

open ZcashSoloPool.Collections
open ZcashSoloPool.JavaScript

/-! ## Entries -/

/-- An entry of the list of the best shares. -/
structure TopShare where
  miner : Option Json
  difficulty : Option Json
  sortDifficulty : ℚ

/-- The value of `difficulty` in `normalizeTopShareEntry`. -/
def topShareDifficulty (entry : Json) : Option Json :=
  pick [entry.member "difficultyText", entry.member "difficulty", entry.member "diffText",
    entry.member "diff", entry.member "bestDiffText", entry.member "bestDiff",
    entry.member "bestDifficultyText", entry.member "bestDifficulty",
    entry.member "shareDifficultyText", entry.member "shareDifficulty",
    nestedPick entry [["share", "difficulty"], ["stats", "difficulty"]]]

/-- `normalizeTopShareEntry` of an object, with `some none` for `null`. -/
def topShareOf (engine : Engine) (entry : Json) (i : Nat) : Option (Option TopShare) := do
  let difficulty := topShareDifficulty entry
  let sortDifficulty ← sortNumber engine difficulty
  pure ((sortDifficulty.filter fun n => 0 < n).map fun sortDifficulty => {
    miner := safeMinerName
      (pick [entry.member "miner", entry.member "worker", entry.member "workerName",
        entry.member "name", entry.member "submittedBy", entry.member "address"])
      (some (.string (numberedName i))) i
    difficulty := difficulty
    sortDifficulty := sortDifficulty })

/-- `normalizeTopShareEntry`. -/
def normalizeTopShareEntry (engine : Engine) (entry : Json) (i : Nat) : Option (Option TopShare) :=
  match entry with
  | .array elements => topShareOf engine (.array elements) i
  | .object members => topShareOf engine (.object members) i
  | _ => some none

/-- `normalizeTopAcceptedShares`. -/
def normalizeTopAcceptedShares (engine : Engine) : Option Json → Option (List TopShare)
  | some (.array entries) =>
      (entries.zipIdx.mapM fun (entry, i) => normalizeTopShareEntry engine entry i).map
        (List.filterMap id)
  | _ => some []

/-- The list of shares that the data itself has. -/
def offeredShares (data : Option Json) : Option Json :=
  let pool := data.bind (Json.member "pool")
  pick [pool.bind (Json.member "topAcceptedShares"), pool.bind (Json.member "topShares"),
    pool.bind (Json.member "bestShares"), data.bind (Json.member "topAcceptedShares"),
    data.bind (Json.member "topShares"), data.bind (Json.member "bestShares")]

/-- The five shares with the greatest numbers. -/
def bestFive (shares : List TopShare) : List TopShare :=
  (sortBy (fun a b => b.sortDifficulty - a.sortDifficulty) shares).take 5

/-- The entry that is made of a row. -/
def rowShare (m : MinerRow) (i : Nat) : Option TopShare :=
  (m.sortHighestDifficulty.filter fun n => 0 < n).map fun sortDifficulty => {
    miner := safeMinerName m.name (some (.string (numberedName i))) i
    difficulty := m.highestDifficulty
    sortDifficulty := sortDifficulty }

/-- `extractTopAcceptedShares`. -/
def extractTopAcceptedShares (engine : Engine) (data : Option Json) (miners : List MinerRow) :
    Option (List TopShare) :=
  (normalizeTopAcceptedShares engine (offeredShares data)).map fun fromApi =>
    if !fromApi.isEmpty then bestFive fromApi
    else bestFive (miners.zipIdx.filterMap fun (m, i) => rowShare m i)

/-! ## Names that are no addresses -/

theorem mem_trim {text : Text} {c : Char} (member : c ∈ text) (solid : ¬isSpace c = true) :
    c ∈ trim text := by
  have kept : ∀ {text : Text}, c ∈ text → c ∈ text.dropWhile isSpace := by
    intro text member
    rw [← List.takeWhile_append_dropWhile (p := isSpace) (l := text)] at member
    exact (List.mem_append.mp member).resolve_left fun space =>
      solid (List.mem_takeWhile_imp space)
  rw [trim, List.mem_reverse]
  exact kept (List.mem_reverse.mpr (kept member))

theorem mem_of_mem_intercalate {separator : Text} {parts : List Text} {c : Char}
    (member : c ∈ separator.intercalate parts) : c ∈ separator ∨ ∃ part ∈ parts, c ∈ part := by
  induction parts with
  | nil => contradiction
  | cons first rest ih =>
      cases rest with
      | nil =>
          rw [List.intercalate_singleton] at member
          exact Or.inr ⟨first, List.mem_cons_self, member⟩
      | cons second others =>
          rw [List.intercalate_cons_cons, List.mem_append, List.mem_append] at member
          rcases member with (inFirst | inSeparator) | later
          · exact Or.inr ⟨first, List.mem_cons_self, inFirst⟩
          · exact Or.inl inSeparator
          · rcases ih later with inSeparator | ⟨part, isPart, inPart⟩
            · exact Or.inl inSeparator
            · exact Or.inr ⟨part, List.mem_cons_of_mem _ isPart, inPart⟩

/-- An address has digits, points and spaces only. -/
theorem isDigit_of_isIpText {text : Text} (isIp : isIpText text = true) {c : Char}
    (member : c ∈ text) : c.isDigit = true ∨ c = '.' ∨ isSpace c = true := by
  by_cases solid : isSpace c = true
  · exact Or.inr (Or.inr solid)
  · have inside := mem_trim member solid
    have joined : ['.'].intercalate ((trim text).splitOn '.') = trim text :=
      List.intercalate_splitOn '.'
    rw [← joined] at inside
    unfold isIpText at isIp
    dsimp only at isIp
    rw [Bool.and_eq_true, List.all_eq_true] at isIp
    rcases mem_of_mem_intercalate inside with point | ⟨part, isPart, inPart⟩
    · exact Or.inr (Or.inl (List.mem_singleton.mp point))
    · have octet := isIp.2 part isPart
      rw [isOctetText, Bool.and_eq_true, List.all_eq_true] at octet
      exact Or.inl (octet.2 c inPart)

theorem not_isIpText_shownName (worker : Text) (i : Nat) : isIpText (shownName worker i) = false := by
  unfold shownName
  split
  · rw [← Bool.not_eq_true]
    intro isIp
    have first := isDigit_of_isIpText isIp (List.mem_append_left _ (List.mem_cons_self (a := 'm')))
    revert first
    decide
  · next other => exact Bool.eq_false_iff.mpr other

theorem shownName_shownName (worker : Text) (i j : Nat) :
    shownName (shownName worker i) j = shownName worker i := by
  rw [shownName, not_isIpText_shownName, if_neg Bool.false_ne_true]

/-! ## The best shares of the miners -/

/-- The entry of a client. -/
def clientShare (format : NumberFormat) (client : ApiClient) (i : Nat) : TopShare where
  miner := some (.string (shownName client.worker i))
  difficulty := some (.string (formatDifficulty format (some client.best)))
  sortDifficulty := Numbers.leadingDigits 10 3 client.best

/-- The best share of one client is not worse than that of another, or the
difference is behind the leading digits. -/
def NotWorse (a b : ApiClient) : Prop :=
  b.best ≤ a.best ∨ Numbers.leadingDigits 10 3 a.best = Numbers.leadingDigits 10 3 b.best

theorem notWorse_of_leadingDigits {a b : ApiClient}
    (le : Numbers.leadingDigits 10 3 b.best ≤ Numbers.leadingDigits 10 3 a.best) :
    NotWorse a b := by
  by_cases order : b.best ≤ a.best
  · exact Or.inl order
  · exact Or.inr (le_antisymm
      (Numbers.leadingDigits_mono (by norm_num) (not_le.mp order).le) le)

/-- The list has the best shares of at most five clients, each with a share of at
least one half, and those left out are not better. -/
structure Ranked (format : NumberFormat) (clients : List ApiClient) (top : List TopShare)
    (first rest : List (ApiClient × Nat)) : Prop where
  perm : (first ++ rest).Perm (clients.zipIdx.filter fun entry => decide (1 / 2 ≤ entry.1.best))
  entries : top = first.map fun (client, i) => clientShare format client i
  five : first.length ≤ 5
  full : rest ≠ [] → first.length = 5
  inOrder : first.Pairwise fun a b => NotWorse a.1 b.1
  best : ∀ a ∈ first, ∀ b ∈ rest, NotWorse a.1 b.1

section Best

variable {engine : Engine} {config : Stratum.RateConfig} {format : NumberFormat} {now : Nat}
  {clients : List ApiClient}

theorem rowShare_shownRow {client : ApiClient} (nonneg : 0 ≤ client.best) (i j : Nat) :
    rowShare (shownRow engine config format now client i) j =
      if 1 / 2 ≤ client.best then some (clientShare format client i) else none := by
  have listed : 0 < Numbers.leadingDigits 10 3 client.best ↔ 1 / 2 ≤ client.best :=
    Numbers.leadingDigits_pos_iff (by norm_num) nonneg
  have name : safeMinerName (some (.string (shownName client.worker i)))
      (some (.string (numberedName j))) j = some (.string (shownName client.worker i)) := by
    rw [safeMinerName_text (shownName_ne_nil (worker_ne_nil client) i), shownName_shownName]
  change ((some (Numbers.leadingDigits 10 3 client.best)).filter fun n => decide (0 < n)).map
    (fun sortDifficulty => TopShare.mk
      (safeMinerName (some (.string (shownName client.worker i)))
        (some (.string (numberedName j))) j)
      (some (.string (formatDifficulty format (some client.best)))) sortDifficulty) = _
  by_cases half : 1 / 2 ≤ client.best
  · rw [name, if_pos half, Option.filter_some, if_pos (decide_eq_true (listed.mpr half))]
    rfl
  · rw [if_neg half, Option.filter_some, if_neg (by simpa using mt listed.mp half)]
    rfl

/-- The entries of the rows, in the order of the table. -/
theorem filterMap_rowShare {ordered : List (ApiClient × Nat)}
    (nonneg : ∀ entry ∈ ordered, 0 ≤ entry.1.best) (start : Nat) :
    (((ordered.map fun (client, i) => shownRow engine config format now client i).zipIdx
        start).filterMap fun (m, i) => rowShare m i) =
      (ordered.filter fun entry => decide (1 / 2 ≤ entry.1.best)).map
        fun (client, i) => clientShare format client i := by
  induction ordered generalizing start with
  | nil => rfl
  | cons entry rest ih =>
      have row : ∀ i j, rowShare (shownRow engine config format now entry.1 i) j =
          if 1 / 2 ≤ entry.1.best then some (clientShare format entry.1 i) else none :=
        rowShare_shownRow (nonneg entry List.mem_cons_self)
      have later := ih (fun other member => nonneg other (List.mem_cons_of_mem _ member))
      rw [List.map_cons, List.zipIdx_cons, List.filterMap_cons]
      dsimp only
      rw [row]
      by_cases half : 1 / 2 ≤ entry.1.best
      · rw [if_pos half, List.filter_cons_of_pos (by simpa using half), List.map_cons]
        exact congrArg _ (later _)
      · rw [if_neg half, List.filter_cons_of_neg (by simpa using half)]
        exact later _

/-- The order of the entries, by the leading digits. -/
def byDigits (a b : ApiClient × Nat) : ℚ :=
  Numbers.leadingDigits 10 3 b.1.best - Numbers.leadingDigits 10 3 a.1.best

theorem consistent_byDigits : Consistent byDigits := by
  have turned : byDigits = fun a b => (Numbers.leadingDigits 10 3 a.1.best -
      Numbers.leadingDigits 10 3 b.1.best) * -1 := by
    funext a b
    rw [byDigits]
    ring
  rw [turned]
  exact (Consistent.sub.comap fun entry : ApiClient × Nat =>
    Numbers.leadingDigits 10 3 entry.1.best).neg

/-- The five best entries are those of the five best clients. -/
theorem bestFive_clientShare (listed : List (ApiClient × Nat)) :
    bestFive (listed.map fun (client, i) => clientShare format client i) =
      ((sortBy byDigits listed).take 5).map fun (client, i) => clientShare format client i := by
  rw [bestFive, sortBy_map, List.map_take]
  rfl

/-- The list that the dashboard makes of rows ranks the miners. -/
theorem exists_ranked {data : Option Json}
    (own : normalizeTopAcceptedShares engine (offeredShares data) = some [])
    {ordered : List (ApiClient × Nat)} (perm : ordered.Perm clients.zipIdx)
    (nonneg : ∀ client ∈ clients, 0 ≤ client.best) :
    ∃ top first rest,
      extractTopAcceptedShares engine data
          (ordered.map fun (client, i) => shownRow engine config format now client i) = some top ∧
        Ranked format clients top first rest := by
  let listed := ordered.filter fun entry => decide (1 / 2 ≤ entry.1.best)
  have shares : extractTopAcceptedShares engine data
      (ordered.map fun (client, i) => shownRow engine config format now client i) =
      some (((sortBy byDigits listed).take 5).map fun (client, i) => clientShare format client i) := by
    have known : ∀ entry ∈ ordered, 0 ≤ entry.1.best := fun entry member =>
      nonneg entry.1 (List.fst_mem_of_mem_zipIdx (perm.mem_iff.mp member))
    rw [extractTopAcceptedShares, own, filterMap_rowShare known, ← bestFive_clientShare]
    rfl
  have split : (sortBy byDigits listed).take 5 ++ (sortBy byDigits listed).drop 5 =
      sortBy byDigits listed := List.take_append_drop 5 _
  have notWorse : ∀ {a b : ApiClient × Nat}, byDigits a b ≤ 0 → NotWorse a.1 b.1 :=
    fun le => notWorse_of_leadingDigits (sub_nonpos.mp le)
  obtain ⟨inOrder, rest⟩ := pairwise_take_sortBy consistent_byDigits listed 5
  refine ⟨_, _, _, shares, {
    perm := ?_
    entries := rfl
    five := List.length_take_le _ _
    full := ?_
    inOrder := inOrder.imp notWorse
    best := fun a isFirst b isRest => notWorse (rest a isFirst b isRest) }⟩
  · rw [split]
    exact (perm_sortBy _ _).trans (perm.filter _)
  · intro more
    rw [List.length_take, Nat.min_eq_left]
    rw [ne_eq, List.drop_eq_nil_iff, not_le] at more
    exact more.le

/-- The list that the dashboard makes of the answer of the pool ranks the miners,
whatever the table is sorted by. -/
theorem topAcceptedShares_ranked {data : Option Json} {exp : ℚ → ℚ}
    (collates : Consistent engine.localeCompare)
    (legible : ∀ client ∈ authorizedClients clients, Legible engine config exp client)
    (own : normalizeTopAcceptedShares engine (offeredShares data) = some [])
    (key : MinerKey) (ascending : Bool) :
    ∃ rows top first rest,
      normalizeMiners engine (minersOf (getApiMiners config format now clients)) = some rows ∧
      extractTopAcceptedShares engine data (sortMiners engine key ascending rows) = some top ∧
      Ranked format (authorizedClients clients) top first rest := by
  have nonneg : ∀ client ∈ authorizedClients clients, 0 ≤ client.best := fun client member =>
    ApiClient.best_nonneg (legible client member).reached
  obtain ⟨ordered, tabled⟩ := exists_tabled collates key ascending
  obtain ⟨top, first, rest, extracted, ranked⟩ := exists_ranked own tabled.perm nonneg
  rw [minersOf_getApiMiners]
  refine ⟨_, top, first, rest, normalizeMiners_buildApiMiner legible true, ?_, ranked⟩
  rw [tabled.rows]
  exact extracted

end Best

theorem topAcceptedShares_clientsExample :
    ∃ rows top first rest,
      normalizeMiners plainEngine (minersOf (getApiMiners Stratum.RatedMiner.rateExample
        integerFormat 60000 clientsExample)) = some rows ∧
      extractTopAcceptedShares plainEngine none (sortMiners plainEngine .name true rows) =
        some top ∧
      Ranked integerFormat (authorizedClients clientsExample) top first rest :=
  topAcceptedShares_ranked consistent_threeWay legible_clientsExample rfl _ _

end ZcashSoloPool.Dashboard
