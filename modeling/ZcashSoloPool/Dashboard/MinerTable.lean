import ZcashSoloPool.Collections.SortBy
import ZcashSoloPool.Dashboard.ApiMiner
import Mathlib.Data.Char
import Mathlib.Data.List.Lex

/-!
# The table of the miners

The dashboard sorts its rows by a column, with rows that have no value last where
the values rise, and by name where the column does not decide.  For the miners of
the pool the table has the order of what the pool knows.
-/

namespace ZcashSoloPool.Dashboard

open ZcashSoloPool.Collections
open ZcashSoloPool.JavaScript

/-! ## Sorting rows -/

/-- The columns of numbers. -/
inductive Column where
  | hashrate
  | accepted
  | rejected
  | stale
  | blocksFound
  | highestDifficulty
  | connected
  | ping
  | lastShare
  deriving DecidableEq

/-- What a table is sorted by; `other` is a key that no column has. -/
inductive MinerKey where
  | name
  | number (column : Column)
  | other
  deriving DecidableEq

/-- A value to sort by. -/
inductive SortValue where
  | text (text : Text)
  | number (value : ℚ)

/-- The number that a row is sorted by in a column. -/
def MinerRow.sortNumber (miner : MinerRow) : Column → Option ℚ
  | .hashrate => miner.sortHashrate
  | .accepted => miner.sortAccepted
  | .rejected => miner.sortRejected
  | .stale => miner.sortStale
  | .blocksFound => some miner.sortBlocksFound
  | .highestDifficulty => miner.sortHighestDifficulty
  | .connected => miner.sortConnectedSeconds
  | .ping => miner.sortPingMs
  | .lastShare => miner.sortLastShareMs

/-- `getMinerSortValue`. -/
def getMinerSortValue (miner : MinerRow) : MinerKey → Option SortValue
  | .name => some (.text miner.sortName)
  | .number column => (miner.sortNumber column).map .number
  | .other => none

/-- An empty text counts as missing. -/
def present : Option SortValue → Option SortValue
  | some (.text []) => none
  | value => value

/-- `String(_)` of a value. -/
def SortValue.toText (engine : Engine) : SortValue → Text
  | .text characters => characters
  | .number value => engine.write value

/-- The part of `compareSortValues` for values that are not missing. -/
def compareValues (engine : Engine) : SortValue → SortValue → ℚ
  | .number a, .number b => a - b
  | a, b => engine.localeCompare (a.toText engine) (b.toText engine)

/-- `compareSortValues`. -/
def compareSortValues (engine : Engine) (a b : Option SortValue) : ℚ :=
  missingLast (compareValues engine) (present a) (present b)

/-- The function that `sortMiners` compares rows with. -/
def compareMiners (engine : Engine) (key : MinerKey) (ascending : Bool) : MinerRow → MinerRow → ℚ :=
  thenBy
    (fun a b => compareSortValues engine (getMinerSortValue a key) (getMinerSortValue b key) *
      if ascending then 1 else -1)
    (fun a b => compareSortValues engine (getMinerSortValue a .name) (getMinerSortValue b .name))

/-- `sortMiners`. -/
def sortMiners (engine : Engine) (key : MinerKey) (ascending : Bool) (miners : List MinerRow) :
    List MinerRow :=
  sortBy (compareMiners engine key ascending) miners

/-! ## The order of the table -/

/-- Numbers in a column: one that is missing comes last where the numbers rise,
and first where they fall. -/
structure InOrder (ascending : Bool) (x y : Option ℚ) : Prop where
  rising : ascending = true → ∀ n ∈ y, ∃ m ∈ x, m ≤ n
  falling : ascending = false → ∀ m ∈ x, ∃ n ∈ y, n ≤ m

section Sorting

variable {engine : Engine}

theorem compareSortValues_number (engine : Engine) (x y : Option ℚ) :
    compareSortValues engine (x.map .number) (y.map .number) =
      missingLast (fun a b => a - b) x y := by
  cases x with
  | none => cases y <;> rfl
  | some x => cases y <;> rfl

theorem missingLast_sub_self (x : Option ℚ) : missingLast (fun a b => a - b) x x = 0 := by
  cases x with
  | none => rfl
  | some n => exact sub_self n

theorem compareSortValues_text (engine : Engine) (x y : Text) :
    compareSortValues engine (some (.text x)) (some (.text y)) =
      missingLast engine.localeCompare ((some x).filter fun text => !text.isEmpty)
        ((some y).filter fun text => !text.isEmpty) := by
  cases x with
  | nil => cases y <;> rfl
  | cons c rest => cases y <;> rfl

/-- Rows are compared consistently, whatever the column. -/
theorem consistent_compareMiners (collates : Consistent engine.localeCompare) (key : MinerKey)
    (ascending : Bool) : Consistent (compareMiners engine key ascending) := by
  have names : Consistent fun a b : MinerRow =>
      compareSortValues engine (getMinerSortValue a .name) (getMinerSortValue b .name) := by
    simp only [getMinerSortValue, compareSortValues_text]
    exact collates.missingLast.comap
      fun miner : MinerRow => (some miner.sortName).filter fun text => !text.isEmpty
  have keys : Consistent fun a b : MinerRow =>
      compareSortValues engine (getMinerSortValue a key) (getMinerSortValue b key) := by
    cases key with
    | name => exact names
    | number column =>
        simp only [getMinerSortValue, compareSortValues_number]
        exact Consistent.sub.missingLast.comap fun miner : MinerRow => miner.sortNumber column
    | other => exact ⟨fun _ _ => Iff.rfl, fun _ _ _ _ same => same⟩
  apply Consistent.thenBy _ names
  cases ascending with
  | true =>
      simp only [if_true, mul_one]
      exact keys
  | false =>
      simp only [Bool.false_eq_true, if_false]
      exact keys.neg

theorem inOrder_of_compare {column : Column} {ascending : Bool} {a b : MinerRow}
    (le : compareMiners engine (.number column) ascending a b ≤ 0) :
    InOrder ascending (a.sortNumber column) (b.sortNumber column) := by
  have primary := le_of_thenBy le
  simp only [getMinerSortValue, compareSortValues_number] at primary
  generalize a.sortNumber column = x at primary
  generalize b.sortNumber column = y at primary
  constructor
  · rintro rfl n ⟨⟩
    cases x with
    | none => norm_num [missingLast] at primary
    | some m => exact ⟨m, rfl, by simpa [missingLast] using primary⟩
  · rintro rfl m ⟨⟩
    cases y with
    | none => norm_num [missingLast] at primary
    | some n => exact ⟨n, rfl, by simpa [missingLast] using primary⟩

end Sorting

/-! ## The miners of the pool -/

/-- What the pool knows of a client, by the columns of the table. -/
def ApiClient.known (config : Stratum.RateConfig) (now : Nat) (client : ApiClient) :
    Column → Option ℚ
  | .hashrate => some (client.rated.estimateHashrate config none now)
  | .accepted => some client.rated.miner.metrics.accepted
  | .rejected => some client.rated.miner.metrics.rejected
  | .stale => some client.rated.miner.metrics.stale
  | .blocksFound => some client.rated.miner.metrics.blocksFound
  | .highestDifficulty => some (Numbers.leadingDigits 10 3 client.best)
  | .connected => some (client.connectedSeconds now)
  | .ping => some (client.ping.lastPingMs.getD 0)
  | .lastShare => client.rated.miner.metrics.lastShareAt.map Nat.cast

section Miners

variable {engine : Engine} {config : Stratum.RateConfig} {format : NumberFormat} {now : Nat}
  {exp : ℚ → ℚ} {clients : List ApiClient}

theorem sortNumber_shownRow (client : ApiClient) (i : Nat) (column : Column) :
    (shownRow engine config format now client i).sortNumber column =
      client.known config now column := by
  cases column <;> rfl

theorem mapM_normalizeMinerRow (legible : ∀ client ∈ clients, Legible engine config exp client)
    (includeAddress : Bool) (start : Nat) :
    ((clients.map (buildApiMiner config format now includeAddress)).zipIdx start).mapM
        (fun (m, i) => if m.isNull then none else normalizeMinerRow engine m (m.member "ip") i) =
      some ((clients.zipIdx start).map fun (client, i) =>
        shownRow engine config format now client i) := by
  induction clients generalizing start with
  | nil => rfl
  | cons client rest ih =>
      have row : ∀ fallback i,
          normalizeMinerRow engine (buildApiMiner config format now includeAddress client) fallback i =
            some (shownRow engine config format now client i) :=
        normalizeMinerRow_buildApiMiner (legible client List.mem_cons_self) includeAddress
      have notNull : (buildApiMiner config format now includeAddress client).isNull = false := rfl
      rw [List.map_cons, List.zipIdx_cons, List.mapM_cons,
        ih (fun other member => legible other (List.mem_cons_of_mem _ member)),
        List.zipIdx_cons, List.map_cons]
      dsimp only
      rw [notNull, if_neg Bool.false_ne_true, row]
      rfl

theorem normalizeMiners_buildApiMiner (legible : ∀ client ∈ clients, Legible engine config exp client)
    (includeAddress : Bool) :
    normalizeMiners engine
        (some (.array (clients.map (buildApiMiner config format now includeAddress)))) =
      some (clients.zipIdx.map fun (client, i) => shownRow engine config format now client i) :=
  mapM_normalizeMinerRow legible includeAddress 0

/-- How the names of two rows are compared. -/
def compareNames (engine : Engine) (a b : ApiClient × Nat) : ℚ :=
  compareSortValues engine
    (some (.text (engine.toLowerCase (shownName a.1.worker a.2))))
    (some (.text (engine.toLowerCase (shownName b.1.worker b.2))))

/-- A table of the miners of the pool has each of them once.  A column of numbers
is in the order of what the pool knows, and rows with equal numbers, or with a key
that no column has, are in the order of their names.  Rows that compare equal keep
the order of the pool. -/
structure Tabled (config : Stratum.RateConfig) (format : NumberFormat) (engine : Engine)
    (now : Nat) (clients : List ApiClient) (key : MinerKey) (ascending : Bool)
    (table : List MinerRow) (ordered : List (ApiClient × Nat)) : Prop where
  perm : ordered.Perm clients.zipIdx
  rows : table = ordered.map fun (client, i) => shownRow engine config format now client i
  inOrder : ∀ column, key = .number column → ordered.Pairwise fun a b =>
    InOrder ascending (a.1.known config now column) (b.1.known config now column)
  ties : ∀ column, key = .number column → ordered.Pairwise fun a b =>
    a.1.known config now column = b.1.known config now column → compareNames engine a b ≤ 0
  named : key = .name → ordered.Pairwise fun a b =>
    if ascending then compareNames engine a b ≤ 0 else 0 ≤ compareNames engine a b
  other : key = .other → ordered.Pairwise fun a b => compareNames engine a b ≤ 0
  stable : ordered.Pairwise fun a b =>
    (∀ column, key = .number column → a.1.known config now column = b.1.known config now column) →
      compareNames engine a b = 0 → a.2 < b.2

theorem compareMiners_eq_zero {key : MinerKey} {a b : ApiClient × Nat}
    (same : ∀ column, key = .number column →
      a.1.known config now column = b.1.known config now column)
    (names : compareNames engine a b = 0) (ascending : Bool) :
    compareMiners engine key ascending (shownRow engine config format now a.1 a.2)
      (shownRow engine config format now b.1 b.2) = 0 := by
  apply thenBy_eq_zero _ names
  cases key with
  | name => exact mul_eq_zero_of_left names _
  | number column =>
      simp only [getMinerSortValue, compareSortValues_number, sortNumber_shownRow, same column rfl,
        missingLast_sub_self, zero_mul]
  | other => exact zero_mul _

theorem pairwise_zipIdx (clients : List ApiClient) :
    clients.zipIdx.Pairwise fun a b => a.2 < b.2 := by
  rw [← List.pairwise_map, List.zipIdx_map_snd]
  exact List.pairwise_lt_range'

theorem exists_tabled (collates : Consistent engine.localeCompare) (key : MinerKey)
    (ascending : Bool) :
    ∃ ordered, Tabled config format engine now clients key ascending
      (sortMiners engine key ascending
        (clients.zipIdx.map fun (client, i) => shownRow engine config format now client i))
      ordered := by
  have consistent := (consistent_compareMiners collates key ascending).comap
    fun entry : ApiClient × Nat => shownRow engine config format now entry.1 entry.2
  have sorted := pairwise_sortBy consistent clients.zipIdx
  refine ⟨_, perm_sortBy _ _, sortBy_map _ _ _, ?_, ?_, ?_, ?_, ?_⟩
  · rintro column rfl
    refine sorted.imp fun {a b} le => ?_
    have order := inOrder_of_compare le
    rw [sortNumber_shownRow, sortNumber_shownRow] at order
    exact order
  · rintro column rfl
    refine sorted.imp fun {a b} le same => ?_
    have second := second_le_of_thenBy le
    simp only [getMinerSortValue, compareSortValues_number, sortNumber_shownRow, same,
      missingLast_sub_self, zero_mul] at second
    exact second trivial
  · rintro rfl
    refine sorted.imp fun {a b} le => ?_
    have primary := le_of_thenBy le
    change compareNames engine a b * (if ascending then 1 else -1) ≤ 0 at primary
    cases ascending with
    | true => simpa using primary
    | false => simpa using primary
  · rintro rfl
    refine sorted.imp fun {a b} le => ?_
    have second := second_le_of_thenBy le
    exact second (zero_mul _)
  · exact (stable_sortBy consistent (pairwise_zipIdx clients)).imp fun {a b} before same names =>
      before (compareMiners_eq_zero same names ascending)

theorem minersOf_getApiMiners (config : Stratum.RateConfig) (format : NumberFormat) (now : Nat)
    (clients : List ApiClient) :
    minersOf (getApiMiners config format now clients) =
      some (.array ((authorizedClients clients).map (buildApiMiner config format now true))) :=
  rfl

/-- The table that the dashboard makes of the answer of the pool is in order,
whatever it is sorted by. -/
theorem sortMiners_tabled (collates : Consistent engine.localeCompare)
    (legible : ∀ client ∈ authorizedClients clients, Legible engine config exp client)
    (key : MinerKey) (ascending : Bool) :
    ∃ rows ordered,
      normalizeMiners engine (minersOf (getApiMiners config format now clients)) = some rows ∧
      Tabled config format engine now (authorizedClients clients) key ascending
        (sortMiners engine key ascending rows) ordered := by
  obtain ⟨ordered, tabled⟩ := exists_tabled collates key ascending
  rw [minersOf_getApiMiners]
  exact ⟨_, ordered, normalizeMiners_buildApiMiner legible true, tabled⟩

end Miners

/-! ## A short table -/

theorem printable_of_isDigit {c : Char} (digit : c.isDigit = true) :
    0x20 ≤ c.toNat ∧ c.toNat < 0x7f := by
  rw [Char.isDigit, Bool.and_eq_true, decide_eq_true_eq, decide_eq_true_eq] at digit
  have low : 48 ≤ c.toNat := digit.1
  have high : c.toNat ≤ 57 := digit.2
  omega

/-- A number with an exponent has printable characters. -/
theorem Exponential.printable {text : Text} (exponential : Exponential text) :
    ∀ c ∈ text, 0x20 ≤ c.toNat ∧ c.toNat < 0x7f := by
  obtain ⟨decimal, digits, rfl, -, isDigit⟩ := exponential
  intro c member
  rcases List.mem_append.mp member with inDecimal | inExponent
  · rcases List.mem_append.mp inDecimal with inWhole | inFraction
    · exact printable_of_isDigit (decimal.isDigit_whole c inWhole)
    · unfold Decimal.fraction at inFraction
      split at inFraction
      · contradiction
      · rcases List.mem_cons.mp inFraction with rfl | inFrac
        · decide
        · exact printable_of_isDigit (decimal.isDigit_frac c inFrac)
  · rcases List.mem_cons.mp inExponent with rfl | behind
    · decide
    · rcases List.mem_cons.mp behind with rfl | inDigits
      · decide
      · exact printable_of_isDigit (isDigit c inDigits)

/-- An engine that writes whole numbers, knows the date of one text and compares
texts by their characters. -/
def plainEngine : Engine where
  now := 60000
  write x := if 10 ^ 21 ≤ x then integerFormat.text x else NumberFormat.integers.write x
  write_integer n small := by
    have below : ¬(10 : ℚ) ^ 21 ≤ n := by
      have bound : n < 10 ^ 21 := by omega
      exact not_le.mpr (by exact_mod_cast bound)
    rw [if_neg below]
    exact NumberFormat.integers.write_integer n small
  printable value c member := by
    split at member
    · next large => exact (integerFormat.exponential value large).printable c member
    · exact NumberFormat.integers.printable value c member
  exponential x large := by
    rw [if_pos large]
    exact integerFormat.exponential x large
  dateParse text := if text = "1970-01-01T00:00:41.000Z".toList then some 41000 else none
  toLowerCase := JavaScript.toLowerCase
  localeCompare := threeWay

open Stratum.RatedMiner in
/-- Two miners with shares, one without a name, and a miner that is not
authorized. -/
def clientsExample : List ApiClient :=
  let authorize := Event.course .authorize
  let share := Event.outcome (.accepted [] 70000 none 2) 41000
  [⟨1, some "rig".toList,
      .after rateExample nearExp 1 0 (authorize :: steadyEvents),
      .new, some "192.0.2.1".toList, 50001⟩,
    ⟨2, none, .after rateExample nearExp 2 0 [authorize, share], .new,
      some "192.0.2.2".toList, 50002⟩,
    ⟨3, some "spare".toList, .after rateExample nearExp 3 0 [], .new,
      some "192.0.2.3".toList, 50003⟩]

theorem legible_clientsExample : ∀ client ∈ authorizedClients clientsExample,
    Legible plainEngine Stratum.RatedMiner.rateExample Stratum.RatedMiner.nearExp client := by
  have small : ∀ client ∈ clientsExample, client.best < 10 ^ 21 := by
    decide +kernel
  have shared : ∀ client ∈ clientsExample,
      ∀ ms ∈ client.rated.miner.metrics.lastShareAt, ms = 41000 := by
    decide +kernel
  have reads : Reads plainEngine 41000 := by
    constructor <;> decide +kernel
  have reached : ∀ client ∈ clientsExample,
      client.Reached Stratum.RatedMiner.rateExample Stratum.RatedMiner.nearExp := by
    simp only [clientsExample, List.forall_mem_cons]
    exact ⟨⟨0, _, rfl⟩, ⟨0, _, rfl⟩, ⟨0, _, rfl⟩, List.forall_mem_nil _⟩
  intro client member
  have known : client ∈ clientsExample := List.mem_of_mem_filter member
  exact ⟨reached client known, small client known,
    fun ms isShared => shared client known ms isShared ▸ reads⟩

theorem sortMiners_clientsExample :
    ∃ rows ordered,
      normalizeMiners plainEngine (minersOf (getApiMiners Stratum.RatedMiner.rateExample
        integerFormat 60000 clientsExample)) = some rows ∧
      Tabled Stratum.RatedMiner.rateExample integerFormat plainEngine 60000
        (authorizedClients clientsExample) (.number .highestDifficulty) false
        (sortMiners plainEngine (.number .highestDifficulty) false rows) ordered :=
  sortMiners_tabled consistent_threeWay legible_clientsExample _ _

end ZcashSoloPool.Dashboard
