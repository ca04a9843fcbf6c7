import ZcashSoloPool.WorkManager.Payout

/-!
# The Merkle root of a job

The ids of a template's transactions are written in display order; the root is
taken over their bytes in reversed order, and is itself written in display
order.  An entry without a usable id makes the computation throw.
-/

namespace ZcashSoloPool.WorkManager

open ZcashSoloPool.Bytes
open ZcashSoloPool.JavaScript

/-! ## Ids -/

/-- The bytes of an id in the order in which they are hashed. -/
def internalOrder (id : Text) : List UInt8 :=
  (ofHex id).reverse

/-- The id of a transaction: its hash where that counts as true, and otherwise
its `txid`, written with 64 digits. -/
inductive HasId : Option TemplateTx → Text → Prop
  | hash {tx : TemplateTx} (present : tx.hash.truthy = true)
      (digits : isHash64 tx.hash.toText = true) : HasId (some tx) tx.hash.toText
  | txid {tx : TemplateTx} (absent : tx.hash.truthy = false)
      (digits : isHash64 tx.txid.toText = true) : HasId (some tx) tx.txid.toText

/-- The id that a template names for its coinbase: 64 digits or none. -/
inductive NamesCoinbase : Value → Option Text → Prop
  | named {id : Text} (digits : isHash64 id = true) : NamesCoinbase (.string id) (some id)
  | unnamed {value : Value} (absent : (value.truthy && isHash64 value.toText) = false) :
      NamesCoinbase value none

/-- The first leaf: the named id, or the hash of the coinbase itself. -/
def coinbaseId (deps : Externals) (coinbaseTxHex : Text) : Option Text → List UInt8
  | some id => internalOrder id
  | none => deps.doubleHash (ofHex coinbaseTxHex)

/-- No value that counts as false is written with 64 digits. -/
theorem truthy_of_isHash64 {value : Value} (digits : isHash64 value.toText = true) :
    value.truthy = true := by
  cases value with
  | undefined => exact absurd digits (by decide)
  | null => exact absurd digits (by decide)
  | bool flag =>
      cases flag with
      | true => rfl
      | false => exact absurd digits (by decide)
  | number n =>
      have nonzero : n.value ≠ 0 := by
        intro zero
        have written : (Value.number n).toText = ['0'] := by
          calc
            _ = (toString n.value).toList := rfl
            _ = (toString (0 : Int)).toList := by rw [zero]
            _ = ['0'] := rfl
        rw [written] at digits
        contradiction
      exact decide_eq_true nonzero
  | string text =>
      cases text with
      | nil => exact absurd digits (by decide)
      | cons c rest => rfl
  | object identity text buffer => rfl

/-- The text that is tested for an entry is the id of the entry. -/
theorem hasId_iff {tx : TemplateTx} {id : Text} :
    HasId (some tx) id ↔ id = tx.hashText ∧ isHash64 tx.hashText = true := by
  have first (present : tx.hash.truthy = true) : tx.hashText = tx.hash.toText := by
    simp [TemplateTx.hashText, Value.or, present]
  have second (absent : tx.hash.truthy = false) (present : tx.txid.truthy = true) :
      tx.hashText = tx.txid.toText := by
    simp [TemplateTx.hashText, Value.or, absent, present]
  have neither (absent : tx.hash.truthy = false) (missing : tx.txid.truthy = false) :
      tx.hashText = [] := by
    rw [TemplateTx.hashText, Value.or, Value.or, absent]
    simp only [Bool.false_eq_true, if_false, missing]
    rfl
  constructor
  · intro hasId
    cases hasId with
    | hash present digits =>
        rw [first present]
        exact ⟨rfl, digits⟩
    | txid absent digits =>
        rw [second absent (truthy_of_isHash64 digits)]
        exact ⟨rfl, digits⟩
  · rintro ⟨rfl, digits⟩
    cases present : tx.hash.truthy with
    | true =>
        rw [first present] at digits ⊢
        exact HasId.hash present digits
    | false =>
        cases found : tx.txid.truthy with
        | true =>
            rw [second present found] at digits ⊢
            exact HasId.txid present digits
        | false =>
            rw [neither present found] at digits
            exact absurd digits (by decide)

/-- An entry has one leaf at most: its id in reversed byte order. -/
theorem txLeaf_eq_ok_iff {t : Option TemplateTx} {leaf : List UInt8} :
    txLeaf t = .ok leaf ↔ ∃ id, HasId t id ∧ leaf = internalOrder id := by
  cases t with
  | none =>
      constructor
      · intro read
        cases read
      · rintro ⟨id, hasId, -⟩
        cases hasId
  | some tx =>
      simp only [hasId_iff, txLeaf]
      by_cases digits : isHash64 tx.hashText = true
      · simp [digits, internalOrder, eq_comm]
      · simp [digits]

/-- Reading a list of entries is reading every entry. -/
theorem mapM_eq_ok_iff {α β : Type} {f : α → Except String β} {items : List α}
    {results : List β} :
    items.mapM f = .ok results ↔ List.Forall₂ (fun item result => f item = .ok result) items
      results := by
  induction items generalizing results with
  | nil =>
      rw [List.mapM_nil, List.forall₂_nil_left_iff]
      constructor
      · intro read
        cases read
        rfl
      · rintro rfl
        rfl
  | cons item rest ih =>
      rw [List.mapM_cons, List.forall₂_cons_left_iff]
      simp only [bind_eq_ok, ih]
      constructor
      · rintro ⟨result, first, later, others, ⟨⟩⟩
        exact ⟨result, later, first, others, rfl⟩
      · rintro ⟨result, later, first, others, rfl⟩
        exact ⟨result, first, later, others, rfl⟩

/-! ## The root -/

/-- The coinbase's leaf is computed from what the template names. -/
theorem coinbaseLeaf_of_names {deps : Externals} {coinbaseTxHex : Text} {coinbaseTxid : Value}
    {id : Option Text} (names : NamesCoinbase coinbaseTxid id) :
    coinbaseLeaf deps coinbaseTxHex coinbaseTxid = .ok (coinbaseId deps coinbaseTxHex id) := by
  cases names with
  | named digits =>
      have present := truthy_of_isHash64 (show isHash64 (Value.string _).toText = true from digits)
      rw [coinbaseLeaf, present, Value.toText_string, digits]
      rfl
  | unnamed absent =>
      rw [coinbaseLeaf, absent]
      rfl

/-- The leaves of a job. -/
def merkleLeaves (deps : Externals) (coinbaseTxHex : Text) (id : Option Text)
    (ids : List Text) : List (List UInt8) :=
  coinbaseId deps coinbaseTxHex id :: ids.map internalOrder

theorem calculateFullMerkleRoot_of_ids {deps : Externals} {coinbaseTxHex : Text}
    {txs : List (Option TemplateTx)} {coinbaseTxid : Value} {id : Option Text}
    (names : NamesCoinbase coinbaseTxid id) {ids : List Text}
    (have_ids : List.Forall₂ HasId txs ids) :
    ∃ top, Merkle.root deps.hashPair (merkleLeaves deps coinbaseTxHex id ids) = some top ∧
      calculateFullMerkleRoot deps coinbaseTxHex txs coinbaseTxid = .ok (toHex top.reverse) := by
  obtain ⟨top, -, topEq⟩ := Merkle.reduce_eq_root deps.hashPair
    (List.cons_ne_nil (coinbaseId deps coinbaseTxHex id) (ids.map internalOrder)) (Nat.le_succ _)
  have leaves : txs.mapM txLeaf = .ok (ids.map internalOrder) := by
    rw [mapM_eq_ok_iff, List.forall₂_map_right_iff]
    apply have_ids.imp
    intro t id hasId
    exact txLeaf_eq_ok_iff.mpr ⟨id, hasId, rfl⟩
  exact ⟨top, topEq, calculateFullMerkleRoot_eq_ok.mpr
    ⟨_, coinbaseLeaf_of_names names, _, leaves, top, topEq, rfl⟩⟩

/-- An error is reported exactly for an entry without an id. -/
theorem calculateFullMerkleRoot_isError_iff {deps : Externals} {coinbaseTxHex : Text}
    {txs : List (Option TemplateTx)} {coinbaseTxid : Value} {id : Option Text}
    (names : NamesCoinbase coinbaseTxid id) :
    (∃ message, calculateFullMerkleRoot deps coinbaseTxHex txs coinbaseTxid = .error message) ↔
      ∃ t ∈ txs, ¬∃ id, HasId t id := by
  constructor
  · rintro ⟨message, failed⟩
    by_contra complete
    push Not at complete
    obtain ⟨leaves, read⟩ := mapM_isOk_iff.mpr fun t member => by
      obtain ⟨id, hasId⟩ := complete t member
      exact ⟨_, txLeaf_eq_ok_iff.mpr ⟨id, hasId, rfl⟩⟩
    obtain ⟨top, -, topEq⟩ := Merkle.reduce_eq_root deps.hashPair
      (List.cons_ne_nil (coinbaseId deps coinbaseTxHex id) leaves) (Nat.le_succ _)
    have computed := calculateFullMerkleRoot_eq_ok.mpr
      ⟨_, coinbaseLeaf_of_names names, leaves, read, top, topEq, rfl⟩
    rw [failed] at computed
    contradiction
  · rintro ⟨t, member, missing⟩
    cases computed : calculateFullMerkleRoot deps coinbaseTxHex txs coinbaseTxid with
    | error message => exact ⟨message, rfl⟩
    | ok root =>
        obtain ⟨-, -, leaves, read, -⟩ := calculateFullMerkleRoot_eq_ok.mp computed
        obtain ⟨leaf, single⟩ := mapM_isOk_iff.mp ⟨leaves, read⟩ t member
        obtain ⟨id, hasId, -⟩ := txLeaf_eq_ok_iff.mp single
        exact absurd ⟨id, hasId⟩ missing

/-- The work manager computes the root over the ids in reversed byte order and
writes it in reversed byte order; pairing up the levels ends in one node; and
an error is reported exactly for an entry without an id. -/
theorem calculateFullMerkleRoot_correct (deps : Externals) (coinbaseTxHex : Text)
    (txs : List (Option TemplateTx)) {coinbaseTxid : Value} {id : Option Text}
    (names : NamesCoinbase coinbaseTxid id) :
    (∀ ids, List.Forall₂ HasId txs ids →
      let leaves := merkleLeaves deps coinbaseTxHex id ids
      ∃ top, Merkle.root deps.hashPair leaves = some top ∧
        (∀ fuel, leaves.length ≤ fuel + 1 → Merkle.reduce deps.hashPair fuel leaves = [top]) ∧
        calculateFullMerkleRoot deps coinbaseTxHex txs coinbaseTxid =
          .ok (toHex top.reverse)) ∧
    ((∃ message, calculateFullMerkleRoot deps coinbaseTxHex txs coinbaseTxid = .error message) ↔
      ∃ t ∈ txs, ¬∃ id, HasId t id) := by
  constructor
  · intro ids have_ids
    obtain ⟨top, topEq, computed⟩ := calculateFullMerkleRoot_of_ids names have_ids
    refine ⟨top, topEq, ?_, computed⟩
    intro fuel enough
    have nonempty : merkleLeaves deps coinbaseTxHex id ids ≠ [] := List.cons_ne_nil _ _
    obtain ⟨other, reduced, otherEq⟩ := Merkle.reduce_eq_root deps.hashPair nonempty enough
    rw [reduced, Option.some.inj (otherEq.symm.trans topEq)]
  · exact calculateFullMerkleRoot_isError_iff names

/-- An id of a transaction. -/
def idExample : Text :=
  List.replicate 64 'a'

/-- One entry with an id, under a coinbase with an id. -/
theorem calculateFullMerkleRoot_correct_idExample :
    ∃ top, Merkle.root packagesExample.hashPair
        (merkleLeaves packagesExample [] (some idExample) [idExample]) = some top ∧
      calculateFullMerkleRoot packagesExample []
        [some ⟨.undefined, .string idExample, .undefined⟩] (.string idExample) =
          .ok (toHex top.reverse) := by
  obtain ⟨top, topEq, -, computed⟩ :=
    (calculateFullMerkleRoot_correct packagesExample []
      [some ⟨.undefined, .string idExample, .undefined⟩]
      (NamesCoinbase.named (show isHash64 idExample = true by decide))).1 [idExample]
      (List.Forall₂.cons (HasId.txid rfl (by decide)) List.Forall₂.nil)
  exact ⟨top, topEq, computed⟩

/-! ## Entries with two ids -/

/-- An entry whose hash is not an id, beside a valid `txid`. -/
def brokenHashExample : TemplateTx where
  hash := .string "none".toList
  txid := .string idExample
  data := .undefined

/-- A valid `txid` does not make up for a hash that is not an id. -/
theorem not_forall_isHash64_txid :
    ¬∀ (deps : Externals) (coinbaseTxHex : Text) (txs : List (Option TemplateTx)),
      (∀ t ∈ txs, ∃ tx, t = some tx ∧
        (isHash64 tx.hash.toText = true ∨ isHash64 tx.txid.toText = true)) →
      ∃ root, calculateFullMerkleRoot deps coinbaseTxHex txs .undefined = .ok root := by
  intro every
  obtain ⟨root, computed⟩ := every packagesExample [] [some brokenHashExample] (by
    intro t member
    rw [List.mem_singleton.mp member]
    exact ⟨brokenHashExample, rfl, Or.inr (by decide)⟩)
  obtain ⟨-, -, leaves, read, -⟩ := calculateFullMerkleRoot_eq_ok.mp computed
  obtain ⟨leaf, single⟩ := mapM_isOk_iff.mp ⟨leaves, read⟩ _ List.mem_cons_self
  obtain ⟨tx, same, digits⟩ := txLeaf_isOk_iff.mp ⟨leaf, single⟩
  cases same
  exact absurd digits (by decide)

end ZcashSoloPool.WorkManager
