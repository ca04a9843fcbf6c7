import ZcashSoloPool.JavaScript.Value
import ZcashSoloPool.Collections.OrderedMap

/-!
# Templates, jobs and the state of the work manager

The reply of `getblocktemplate` as far as the work manager reads it, the job
record it builds from a reply, and the fields of `WorkManager` that change.
Members of a reply that are passed on unread keep whatever value they have.
-/

namespace ZcashSoloPool

open ZcashSoloPool.JavaScript
open ZcashSoloPool.Collections

namespace WorkManager

/-- The packages the work manager calls. -/
structure Externals where
  /-- One SHA-256 digest. -/
  sha256 : List UInt8 → Vector UInt8 32
  /-- `bs58check.decode`, with the message of the error it throws. -/
  bs58checkDecode : Text → Except String (List UInt8)
  /-- The function of the native addon. -/
  verifyFn : List UInt8 → List UInt8 → Except String Bool

/-- An element of `transactions`. -/
structure TemplateTx where
  hash : Value
  txid : Value
  data : Value
  deriving DecidableEq, Repr

/-- The member `coinbasetxn`. -/
structure CoinbaseTxn where
  data : Value
  hash : Value
  deriving DecidableEq, Repr

/-- A reply of `getblocktemplate`.  `version` and `curtime` are the numbers
that `Number` makes of them.  A member that is absent or falsy where an object
is expected is `none`; `transactions` is `none` when it cannot be iterated, and
its elements are `none` where they are `null`. -/
structure BlockTemplate where
  version : Int
  previousblockhash : Value
  blockcommitmentshash : Value
  lightclientroothash : Value
  finalsaplingroothash : Value
  curtime : Int
  bits : Value
  height : Value
  target : Value
  coinbasetxn : Option CoinbaseTxn
  transactions : Option (JsArray (Option TemplateTx))
  deriving DecidableEq, Repr

/-- A job: the fields for miners first, then those for hashing and assembly,
which the source marks with an underscore. -/
structure Job where
  jobId : Text
  version : Text
  prevhash : Value
  merkleRoot : Text
  reserved : Value
  ntime : Text
  nbits : Value
  cleanJobs : Bool
  height : Value
  target : Value
  versionLE : Text
  prevhashLE : Text
  merkleRootLE : Text
  ntimeLE : Text
  versionBE : Text
  prevhashBE : Value
  merkleRootBE : Text
  reservedBE : Value
  reservedLE : Text
  merkleRootLEForNotify : Text
  prevhashLEForNotify : Text
  versionLEForNotify : Text
  coinbaseTx : Text
  template : BlockTemplate
  deriving DecidableEq, Repr

/-- `doubleHash`. -/
def Externals.doubleHash (deps : Externals) (buf : List UInt8) : List UInt8 :=
  (deps.sha256 (deps.sha256 buf).toList).toList

@[simp]
theorem Externals.length_doubleHash (deps : Externals) (buf : List UInt8) :
    (deps.doubleHash buf).length = 32 :=
  Vector.length_toList

end WorkManager

/-- The fields of `WorkManager` that its operations read and write.  The
counter stays far below the range in which numbers are exact. -/
structure WorkManager where
  walletAddress : Text
  poolTarget : Text
  currentJob : Option WorkManager.Job
  jobs : OrderedMap Text WorkManager.Job
  jobCounter : Nat

/-- A work manager that has not issued a job yet. -/
def WorkManager.initial (walletAddress poolTarget : Text) : WorkManager where
  walletAddress := walletAddress
  poolTarget := poolTarget
  currentJob := none
  jobs := .empty
  jobCounter := 0

end ZcashSoloPool
