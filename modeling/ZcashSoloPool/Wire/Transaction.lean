import ZcashSoloPool.Wire.CompactSize

/-!
# Transparent outputs of a transaction

The node's transaction format up to the end of the transparent part: header,
version group, the leading fields of version 5, inputs and outputs.  Lengths
must be in their shortest form and no larger than the node's limit.
-/

namespace ZcashSoloPool.Wire

open ZcashSoloPool.Bytes

/-- A reader of a byte stream: what it read and what is left. -/
abbrev Reader (α : Type) :=
  List UInt8 → Option (α × List UInt8)

/-- Read a fixed number of bytes. -/
def readExactly (count : Nat) : Reader (List UInt8) := fun bytes =>
  if bytes.length < count then none else some (bytes.take count, bytes.drop count)

/-- Read a little-endian integer. -/
def readUInt (width : Nat) : Reader Nat := fun bytes =>
  (readExactly width bytes).map fun (payload, rest) => (ofLE payload, rest)

/-- The node's limit on a length, `MAX_SIZE`. -/
def maxSize : Nat :=
  0x02000000

/-- The least value that needs the form of a first byte. -/
def leastOfForm (first : UInt8) : Nat :=
  match payloadWidth first with
  | 2 => 253
  | 4 => 0x10000
  | 8 => 0x100000000
  | _ => 0

/-- `ReadCompactSize` of the node: a length in its shortest form. -/
def readLength : Reader Nat := fun bytes => do
  let (value, rest) ← readCompactSize bytes
  if value < leastOfForm (bytes.headD 0) then none
  else if value > maxSize then none
  else some (value, rest)

/-- Read a byte vector with its length. -/
def readScript : Reader (List UInt8) := fun bytes => do
  let (length, rest) ← readLength bytes
  readExactly length rest

/-- Read a number of items one after the other. -/
def readMany {α : Type} (read : Reader α) : Nat → Reader (List α)
  | 0 => fun bytes => some ([], bytes)
  | count + 1 => fun bytes => do
      let (item, rest) ← read bytes
      let (items, rest) ← readMany read count rest
      pure (item :: items, rest)

/-- Read a vector of items with its length. -/
def readVector {α : Type} (read : Reader α) : Reader (List α) := fun bytes => do
  let (count, rest) ← readLength bytes
  readMany read count rest

/-- `CTxIn`. -/
structure TxIn where
  prevout : List UInt8
  scriptSig : List UInt8
  nSequence : Nat
  deriving DecidableEq, Repr

/-- `CTxOut`. -/
structure TxOut where
  nValue : Nat
  scriptPubKey : List UInt8
  deriving DecidableEq, Repr

def readTxIn : Reader TxIn := fun bytes => do
  let (prevout, rest) ← readExactly 36 bytes
  let (scriptSig, rest) ← readScript rest
  let (nSequence, rest) ← readUInt 4 rest
  pure (⟨prevout, scriptSig, nSequence⟩, rest)

def readTxOut : Reader TxOut := fun bytes => do
  let (nValue, rest) ← readUInt 8 bytes
  let (scriptPubKey, rest) ← readScript rest
  pure (⟨nValue, scriptPubKey⟩, rest)

/-- Version and version group of the formats the node knows beyond the first
two: Overwinter, Sapling, version 5 and the format reserved for the future. -/
def knownFormats : List (Nat × Nat) :=
  [(3, 0x03C48270), (4, 0x892F2085), (5, 0x26A7270A), (0xFFFF, 0xFFFFFFFF)]

/-- The part of a transaction before its inputs. -/
def readTxHeader : Reader Unit := fun bytes => do
  let (header, rest) ← readUInt 4 bytes
  if header < 2 ^ 31 then some ((), rest)
  else
    let (nVersionGroupId, rest) ← readUInt 4 rest
    let nVersion := header - 2 ^ 31
    if (nVersion, nVersionGroupId) ∈ knownFormats then
      -- Version 5 has its branch id, lock time and expiry height in front.
      if nVersion = 5 then (readExactly 12 rest).map fun (_, rest) => ((), rest)
      else some ((), rest)
    else none

/-- The transparent inputs and outputs of a transaction. -/
def transparentPart (bytes : List UInt8) : Option (List TxIn × List TxOut) := do
  let (_, rest) ← readTxHeader bytes
  let (vin, rest) ← readVector readTxIn rest
  let (vout, _) ← readVector readTxOut rest
  pure (vin, vout)

/-- Some output of the transaction pays to exactly this script. -/
def PaysTo (script bytes : List UInt8) : Prop :=
  ∃ part, transparentPart bytes = some part ∧ ∃ output ∈ part.2, output.scriptPubKey = script

instance (script bytes : List UInt8) : Decidable (PaysTo script bytes) :=
  match parsed : transparentPart bytes with
  | none => isFalse (by rintro ⟨part, present, _⟩; rw [parsed] at present; contradiction)
  | some part =>
      decidable_of_iff (∃ output ∈ part.2, output.scriptPubKey = script)
        (by simp [PaysTo, parsed])

end ZcashSoloPool.Wire
