import ZcashSoloPool.Wire.Transaction

/-!
# Blocks

The node's block format: a header of 140 bytes, a solution behind its length,
the number of transactions, and the transactions one after the other.  How a
transaction finds its own end is left to a reader.
-/

namespace ZcashSoloPool.Wire

/-- A block taken apart. -/
structure Block where
  header : List UInt8
  solution : List UInt8
  count : Nat
  txs : List (List UInt8)
  deriving DecidableEq, Repr

/-- Read a block with a reader for its transactions. -/
def readBlock (readTx : Reader (List UInt8)) : Reader Block := fun bytes => do
  let (header, rest) ← readExactly 140 bytes
  let (solution, rest) ← readBytes rest
  let (count, rest) ← readCompactSize rest
  let (txs, rest) ← readMany readTx count rest
  pure (⟨header, solution, count, txs⟩, rest)

/-- The reader takes these bytes off the front of any input. -/
def Takes (read : Reader (List UInt8)) (item : List UInt8) : Prop :=
  ∀ rest, read (item ++ rest) = some (item, rest)

theorem readExactly_append {item : List UInt8} {count : Nat} (length : item.length = count)
    (rest : List UInt8) : readExactly count (item ++ rest) = some (item, rest) := by
  subst length
  have long : ¬(item ++ rest).length < item.length := by
    rw [List.length_append]
    omega
  rw [readExactly, if_neg long, List.take_left, List.drop_left]

theorem takes_readExactly (item : List UInt8) : Takes (readExactly item.length) item :=
  readExactly_append rfl

/-- Items that the reader takes are read one after the other. -/
theorem readMany_flatten {read : Reader (List UInt8)} {items : List (List UInt8)}
    (takes : ∀ item ∈ items, Takes read item) (rest : List UInt8) :
    readMany read items.length (items.flatten ++ rest) = some (items, rest) := by
  induction items with
  | nil => rfl
  | cons item others ih =>
      have first := takes item List.mem_cons_self (others.flatten ++ rest)
      have later := ih fun other member => takes other (List.mem_cons_of_mem item member)
      rw [List.flatten_cons, List.append_assoc, List.length_cons, readMany]
      simp only [first, later, Option.bind_eq_bind, Option.bind_some]
      rfl

/-- The pieces of a block are read back, with any length in front of the
solution that denotes its length. -/
theorem readBlock_append {readTx : Reader (List UInt8)} {header field solution : List UInt8}
    {txs : List (List UInt8)} (headerLength : header.length = 140)
    (read : ∀ more, readBytes (field ++ more) = some (solution, more))
    (short : txs.length < 2 ^ 64) (takes : ∀ tx ∈ txs, Takes readTx tx) (rest : List UInt8) :
    readBlock readTx (header ++ (field ++ (compactSize txs.length ++ (txs.flatten ++ rest)))) =
      some (⟨header, solution, txs.length, txs⟩, rest) := by
  simp only [readBlock, readExactly_append headerLength, read, readCompactSize_compactSize short,
    readMany_flatten takes, Option.bind_eq_bind, Option.bind_some]
  rfl

end ZcashSoloPool.Wire
