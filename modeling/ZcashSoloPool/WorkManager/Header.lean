import ZcashSoloPool.WorkManager.ShareSearch

/-!
# The fields of a header

The first hundred bytes of a header come from the texts of the job.  Where the
template has the hashes that the node documents, they are the version, the
previous block, the Merkle root and the reserved field, each in its place.
-/

namespace ZcashSoloPool.WorkManager

open ZcashSoloPool.Bytes
open ZcashSoloPool.JavaScript

/-- The members of a template that decide where the fields of a header lie. -/
structure BlockTemplate.HasHashes (template : BlockTemplate) : Prop where
  previousblockhash : ∃ text, template.previousblockhash = .string text ∧ isHash64 text = true
  coinbaseTxid : ∀ identity text buffer, template.coinbaseTxid ≠ .object identity text buffer

theorem isHash64_iff {text : Text} :
    isHash64 text = true ↔ text.length = 64 ∧ ∀ c ∈ text, (hexValue c).isSome = true := by
  simp [isHash64]

theorem length_ofHex_of_isHash64 {text : Text} (hash : isHash64 text = true) :
    (ofHex text).length = 32 := by
  rcases isHash64_iff.mp hash with ⟨length, digit⟩
  have whole : text.length = 2 * (ofHex text).length := isWhole_of_all digit (by omega)
  omega

theorem length_coinbaseLeaf {deps : Externals} {template : BlockTemplate}
    (hashes : template.HasHashes) {coinbaseTxHex : Text} {cbHash : List UInt8}
    (leaf : coinbaseLeaf deps coinbaseTxHex template.coinbaseTxid = .ok cbHash) :
    cbHash.length = 32 := by
  unfold coinbaseLeaf at leaf
  split at leaf
  · next named =>
      rcases Bool.and_eq_true_iff.mp named with ⟨_, hash⟩
      rcases bind_eq_ok.mp leaf with ⟨bytes, read, same⟩
      cases same
      cases txid : template.coinbaseTxid with
      | string text =>
          rw [txid] at hash read
          cases read
          rw [List.length_reverse]
          exact length_ofHex_of_isHash64 hash
      | object identity text buffer => exact absurd txid (hashes.coinbaseTxid identity text buffer)
      | _ =>
          rw [txid] at read
          cases read
  · cases leaf
    exact deps.length_doubleHash _

/-- The leaf of a transaction that has a hash. -/
def TemplateTx.leaf (t : TemplateTx) : List UInt8 :=
  (ofHex t.hashText).reverse

theorem mapM_txLeaf {txs : List TemplateTx} (hashes : ∀ tx ∈ txs, isHash64 tx.hashText = true) :
    (txs.map some).mapM txLeaf = .ok (txs.map TemplateTx.leaf) := by
  induction txs with
  | nil => rfl
  | cons tx rest ih =>
      have later := ih fun other member => hashes other (List.mem_cons_of_mem tx member)
      have leaf : txLeaf (some tx) = .ok tx.leaf := by
        simp [txLeaf, hashes tx List.mem_cons_self, TemplateTx.leaf]
      rw [List.map_cons, List.mapM_cons, leaf, later]
      rfl

/-- The four parts of the first hundred bytes. -/
structure HeaderFields where
  version : List UInt8
  prevhash : List UInt8
  merkleRoot : List UInt8
  reserved : List UInt8
  versionLength : version.length = 4
  prevhashLength : prevhash.length = 32
  merkleRootLength : merkleRoot.length = 32

/-- The job spells the fields. -/
structure HeaderFields.Of (fields : HeaderFields) (job : Job) : Prop where
  version : job.versionLE = toHex fields.version
  prevhash : job.prevhashLE = toHex fields.prevhash
  merkleRoot : job.merkleRootLE = toHex fields.merkleRoot
  reserved : job.reservedLE = toHex fields.reserved

/-- Bytes at the front of a zero buffer, up to a count. -/
theorem take_copyInto_zeros (source : List UInt8) {count size : Nat} (fits : count ≤ size) :
    (copyInto source (List.replicate size 0) 0).take count =
      (source ++ List.replicate count 0).take count := by
  have start : copyInto source (List.replicate size 0) 0 =
      source.take size ++ List.replicate (size - source.length) 0 := by
    simp [copyInto]
  rw [start]
  by_cases long : count ≤ source.length
  · rw [List.take_append_of_le_length (by simp [fits, long]), List.take_append_of_le_length long,
      List.take_take, Nat.min_eq_left fits]
  · have whole : source.take size = source := List.take_of_length_le (by omega)
    rw [whole, List.take_append, List.take_append, List.take_replicate, List.take_replicate,
      Nat.min_eq_left (by omega), Nat.min_eq_left (by omega)]

/-- The fields stand one after the other in every header, the reserved one cut
or filled up to its place. -/
theorem HeaderFields.Of.fixed_eq {fields : HeaderFields} {ctx : ShareContext}
    (spelled : fields.Of ctx.job) :
    ctx.fixed = fields.version ++ fields.prevhash ++ fields.merkleRoot ++
      (fields.reserved ++ List.replicate 100 0).take 32 := by
  have front : (fields.version ++ fields.prevhash ++ fields.merkleRoot).length + 32 = 100 := by
    simp [fields.versionLength, fields.prevhashLength, fields.merkleRootLength]
  have texts : ofHex (ctx.job.versionLE ++ ctx.job.prevhashLE ++ ctx.job.merkleRootLE ++
      ctx.job.reservedLE) =
        fields.version ++ fields.prevhash ++ fields.merkleRoot ++ fields.reserved := by
    rw [spelled.version, spelled.prevhash, spelled.merkleRoot, spelled.reserved, ← toHex_append,
      ← toHex_append, ← toHex_append, ofHex_toHex]
  rw [ShareContext.fixed, initialHeader, texts, take_copyInto_zeros _ (by decide),
    List.append_assoc]
  conv_lhs => rw [← front]
  rw [List.take_length_add_append, front]

/-- The header bytes of the Merkle root. -/
theorem HeaderFields.Of.merkleRoot_header {fields : HeaderFields} {ctx : ShareContext}
    (spelled : fields.Of ctx.job) (headerNonce nTimeHeader bitsHeader : Text) :
    ((ctx.header headerNonce nTimeHeader bitsHeader).drop 36).take 32 = fields.merkleRoot := by
  have front : (fields.version ++ fields.prevhash).length = 36 := by
    simp [fields.versionLength, fields.prevhashLength]
  rw [ShareContext.header, spelled.fixed_eq]
  simp only [List.append_assoc (fields.version ++ fields.prevhash), ← front, List.drop_left]
  simp only [List.append_assoc, ← fields.merkleRootLength, List.take_left]

/-- A job passes the bits and the target of its template on. -/
theorem Issued.template_members {deps : Externals} {job : Job} (issued : Issued deps job) :
    job.nbits = job.template.bits ∧ job.target = job.template.target := by
  rcases issued with ⟨_, _, _, _, built⟩
  obtain ⟨_, _, _, _, _, _, _, _, _, _, _, _, rfl⟩ := buildJob_eq_ok.mp built
  exact ⟨rfl, rfl⟩

/-- The fields of an issued job: the Merkle root is the root over the id of the
coinbase and the ids of the transactions. -/
theorem Issued.exists_fields {deps : Externals} {job : Job} (issued : Issued deps job)
    (hashes : job.template.HasHashes) {txs : List TemplateTx}
    (txsEq : job.template.txs = .ok (txs.map some)) :
    ∃ fields : HeaderFields, fields.Of job ∧
      (∃ cbHash, coinbaseLeaf deps job.coinbaseTx job.template.coinbaseTxid = .ok cbHash ∧
        Merkle.root deps.hashPair (cbHash :: txs.map TemplateTx.leaf) = some fields.merkleRoot) ∧
      ∃ bytes, job.template.reserved.bufferFromHex = .ok bytes ∧
        fields.reserved = bytes.reverse := by
  rcases issued with ⟨walletAddress, jobId, cleanJobs, reply, built⟩
  obtain ⟨template, coinbaseTx, listed, merkleRootBE, prevhashLE, reservedLE, _, _, listedEq,
    merkle, prevhash, reserved, rfl⟩ := buildJob_eq_ok.mp built
  have sameTxs : listed = txs.map some := Except.ok.inj (listedEq.symm.trans txsEq)
  obtain ⟨cbHash, coinbase, txHashes, txHashesEq, top, rootEq, rfl⟩ :=
    calculateFullMerkleRoot_eq_ok.mp merkle
  have named : ∀ tx ∈ txs, isHash64 tx.hashText = true := by
    intro tx member
    obtain ⟨leaf, leafEq⟩ := mapM_isOk_iff.mp ⟨txHashes, txHashesEq⟩ (some tx)
      (by rw [sameTxs]; exact List.mem_map_of_mem member)
    rcases txLeaf_isOk_iff.mp ⟨leaf, leafEq⟩ with ⟨other, same, hash⟩
    cases same
    exact hash
  have leaves : txHashes = txs.map TemplateTx.leaf := by
    rw [sameTxs, mapM_txLeaf named] at txHashesEq
    exact (Except.ok.inj txHashesEq).symm
  subst leaves
  have rootLength : top.length = 32 := by
    refine Merkle.node_of_forall (P := fun hash => hash.length = 32) (fun leaf member => ?_)
      (fun left right _ _ => deps.length_doubleHash (left ++ right)) rootEq
    rcases List.mem_cons.mp member with rfl | member
    · exact length_coinbaseLeaf hashes coinbase
    · obtain ⟨tx, txMember, rfl⟩ := List.mem_map.mp member
      rw [TemplateTx.leaf, List.length_reverse]
      exact length_ofHex_of_isHash64 (named tx txMember)
  rcases hashes.previousblockhash with ⟨text, textEq, hash⟩
  rcases bind_eq_ok.mp prevhash with ⟨prevBytes, prevRead, prevLE⟩
  rcases bind_eq_ok.mp reserved with ⟨reservedBytes, reservedRead, reservedEq⟩
  have prevLength : prevBytes.length = 32 := by
    rw [show template.previousblockhash = .string text from textEq] at prevRead
    cases prevRead
    exact length_ofHex_of_isHash64 hash
  cases prevLE
  cases reservedEq
  refine ⟨⟨toLE 4 (template.version % 2 ^ 32).toNat, prevBytes.reverse, top, reservedBytes.reverse,
    length_toLE _ _, by rw [List.length_reverse, prevLength], rootLength⟩, ⟨rfl, rfl, ?_, rfl⟩,
    ⟨cbHash, coinbase, rootEq⟩, reservedBytes, reservedRead, rfl⟩
  change reverseHex (toHex top.reverse) = toHex top
  rw [reverseHex_toHex, List.reverse_reverse]

end ZcashSoloPool.WorkManager
