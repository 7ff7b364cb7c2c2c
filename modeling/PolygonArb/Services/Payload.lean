import PolygonArb.Core.Types
import PolygonArb.Lib.ByteFormat
import PolygonArb.Pipeline.RouteCalls

/-!
# The packed executor payload

`calldata/hash.rs` and `build_packed_route_payload`: six header words, then the call list as a count
followed by one record per call, with the call data neither padded nor terminated.

`decodePayload` reads the format back.  It is not in the source, where only the contract reads a
payload; `packedPayload_decodable` says that it recovers every field, so two inputs that differ
never pack to the same bytes, and two call lists with one route hash are a collision of the hash.
-/

namespace PolygonArb

open Word ByteFormat

/-- A byte string a Rust vector can hold. -/
abbrev Bytes := { bs : List Byte // bs.length < 2 ^ 64 }

/-- One call the executor makes.  `δ` is the form its call data is in. -/
structure ExecutorCall (δ : Type) where
  target : Address
  value : U256
  data : δ
  deriving DecidableEq

def isPlausibleContractAddress (addr : Address) : Bool := addr ≠ 0 && 0xffff#160 < addr

/-! ## Packing -/

def u256Bytes (v : U256) : List Byte := toBe 32 v.toNat

/-- An address, left-padded to a word. -/
def addressWord (a : Address) : List Byte := List.replicate 12 0#8 ++ toBe 20 a.toNat

def packCall (call : ExecutorCall Bytes) : List Byte :=
  addressWord call.target ++ (u256Bytes call.value ++
    (toBe 32 call.data.1.length ++ call.data.1))

def packExecutorCalls (calls : List (ExecutorCall Bytes)) : Except String (List Byte) :=
  if calls.isEmpty then .error "route must contain at least one executor call"
  else if packedCallsFitExecutor calls.length = false then
    .error s!"route has {calls.length} calls, maximum is {maxExecutorCalls}"
  else if calls.any fun call => call.target = 0 || !isPlausibleContractAddress call.target then
    .error "executor call target must be a plausible contract address"
  else .ok (toBe 32 calls.length ++ calls.flatMap packCall)

/-- What precedes the calls. -/
structure RouteHeader where
  flashToken : Address
  flashAmount : U256
  profitToken : Address
  minProfit : U256
  deadline : U256
  deriving DecidableEq

def packHeader (h : RouteHeader) (routeHash : BitVec 256) : List Byte :=
  addressWord h.flashToken ++ (u256Bytes h.flashAmount ++ (addressWord h.profitToken ++
    (u256Bytes h.minProfit ++ (u256Bytes h.deadline ++ u256Bytes routeHash))))

section Hash

-- the hash function is not in the repository
variable (keccak256 : List Byte → BitVec 256)

def computeRouteHash (routeBlob : List Byte) : BitVec 256 := keccak256 routeBlob

def buildPackedRoutePayload (h : RouteHeader) (calls : List (ExecutorCall Bytes)) :
    Except String (List Byte × BitVec 256) :=
  if h.flashToken = 0 ∨ h.profitToken = 0 then
    .error "flash and profit token addresses must not be zero"
  else do
    let packedCalls ← packExecutorCalls calls
    let routeHash := computeRouteHash keccak256 packedCalls
    pure (packHeader h routeHash ++ packedCalls, routeHash)

end Hash

/-! ## Reading back -/

def readU256 : Reader U256 := do
  let n ← takeNat 32
  pure (BitVec.ofNat 256 n)

def readAddress : Reader Address := do
  let _ ← takeBytes 12
  let n ← takeNat 20
  pure (BitVec.ofNat 160 n)

/-- The next `n` bytes, if a vector can hold them. -/
def readData (n : ℕ) : Reader Bytes := do
  let bs ← takeBytes n
  if h : bs.length < 2 ^ 64 then pure ⟨bs, h⟩ else failure

def readCall : Reader (ExecutorCall Bytes) := do
  let target ← readAddress
  let value ← readU256
  let length ← takeNat 32
  let data ← readData length
  pure ⟨target, value, data⟩

def readCalls : Reader (List (ExecutorCall Bytes)) := do
  let n ← takeNat 32
  takeMany readCall n

def readHeader : Reader (RouteHeader × BitVec 256) := do
  let flashToken ← readAddress
  let flashAmount ← readU256
  let profitToken ← readAddress
  let minProfit ← readU256
  let deadline ← readU256
  let routeHash ← readU256
  pure (⟨flashToken, flashAmount, profitToken, minProfit, deadline⟩, routeHash)

def readPayload : Reader ((RouteHeader × BitVec 256) × List (ExecutorCall Bytes)) := do
  let header ← readHeader
  let calls ← readCalls
  pure (header, calls)

/-- The whole of `bytes` as a payload: header, route hash and calls. -/
def decodePayload (bytes : List Byte) :
    Option ((RouteHeader × BitVec 256) × List (ExecutorCall Bytes)) :=
  ((readPayload >>= fun p => finish >>= fun _ => pure p).run bytes).map Prod.fst

def decodeCalls (bytes : List Byte) : Option (List (ExecutorCall Bytes)) :=
  ((readCalls >>= fun calls => finish >>= fun _ => pure calls).run bytes).map Prod.fst

/-! ## Every field reads back -/

lemma reads_u256 (v : U256) : Reads readU256 (u256Bytes v) v := by
  have h : Reads (takeNat 32) (u256Bytes v) v.toNat := reads_takeNat (by
    have := v.isLt
    omega)
  have hread := h.map (BitVec.ofNat 256)
  rwa [BitVec.ofNat_toNat, BitVec.setWidth_eq] at hread

lemma reads_address (a : Address) : Reads readAddress (addressWord a) a := by
  have hpad : Reads (takeBytes 12) (List.replicate 12 0#8) (List.replicate 12 0#8) := by
    simpa using reads_takeBytes (List.replicate 12 0#8)
  have hnum : Reads (takeNat 20) (toBe 20 a.toNat) a.toNat := reads_takeNat (by
    have := a.isLt
    omega)
  have hread := hnum.map (BitVec.ofNat 160)
  rw [BitVec.ofNat_toNat, BitVec.setWidth_eq] at hread
  exact hpad.bind hread

lemma reads_data (data : Bytes) : Reads (readData data.1.length) data.1 data := by
  have hcheck : Reads (if h : data.1.length < 2 ^ 64 then pure ⟨data.1, h⟩ else failure) [] data := by
    rw [dif_pos data.2]
    exact Reads.pure data
  have hread : Reads (readData data.1.length) (data.1 ++ []) data :=
    (reads_takeBytes data.1).bind hcheck
  rwa [List.append_nil] at hread

/-- A record is read back field by field, in the order it is written. -/
lemma reads_call (call : ExecutorCall Bytes) : Reads readCall (packCall call) call := by
  have hlen : Reads (takeNat 32) (toBe 32 call.data.1.length) call.data.1.length :=
    reads_takeNat (by
      have := call.data.2
      omega)
  exact (reads_address call.target).bind ((reads_u256 call.value).bind
    (hlen.bind ((reads_data call.data).map
      fun d => (⟨call.target, call.value, d⟩ : ExecutorCall Bytes))))

lemma reads_calls {calls : List (ExecutorCall Bytes)} (h : calls.length < 256 ^ 32) :
    Reads readCalls (toBe 32 calls.length ++ calls.flatMap packCall) calls :=
  (reads_takeNat h).bind (Reads.many fun call _ => reads_call call)

lemma reads_header (h : RouteHeader) (hash : BitVec 256) :
    Reads readHeader (packHeader h hash) (h, hash) :=
  (reads_address h.flashToken).bind ((reads_u256 h.flashAmount).bind
    ((reads_address h.profitToken).bind ((reads_u256 h.minProfit).bind
      ((reads_u256 h.deadline).bind ((reads_u256 hash).map fun x => (h, x))))))

/-- What an accepted call list is packed to. -/
lemma packExecutorCalls_ok {calls : List (ExecutorCall Bytes)} {packed : List Byte}
    (h : packExecutorCalls calls = .ok packed) :
    calls ≠ [] ∧ calls.length ≤ maxExecutorCalls ∧
      packed = toBe 32 calls.length ++ calls.flatMap packCall := by
  unfold packExecutorCalls at h
  split_ifs at h with hempty hfit htarget
  refine ⟨?_, ?_, ?_⟩
  · simpa using hempty
  · simpa [packedCallsFitExecutor] using hfit
  · exact (Except.ok.inj h).symm

lemma reads_packExecutorCalls {calls : List (ExecutorCall Bytes)} {packed : List Byte}
    (h : packExecutorCalls calls = .ok packed) : Reads readCalls packed calls := by
  rcases packExecutorCalls_ok h with ⟨-, hlen, rfl⟩
  refine reads_calls ?_
  have hmax : maxExecutorCalls < 256 ^ 32 := by decide
  omega

/-- The packed call list determines the calls. -/
lemma decodeCalls_packExecutorCalls {calls : List (ExecutorCall Bytes)} {packed : List Byte}
    (h : packExecutorCalls calls = .ok packed) : decodeCalls packed = some calls := by
  rw [decodeCalls, (reads_packExecutorCalls h).run_finish]
  rfl

variable {keccak256 : List Byte → BitVec 256}

/-- A payload is a header, the hash of the packed calls, and the packed calls. -/
lemma buildPackedRoutePayload_ok {h : RouteHeader} {calls : List (ExecutorCall Bytes)}
    {payload : List Byte} {hash : BitVec 256}
    (hb : buildPackedRoutePayload keccak256 h calls = .ok (payload, hash)) :
    ∃ packed, packExecutorCalls calls = .ok packed ∧ hash = keccak256 packed ∧
      payload = packHeader h hash ++ packed := by
  unfold buildPackedRoutePayload at hb
  split_ifs at hb with hzero
  cases hp : packExecutorCalls calls with
  | error e =>
      rw [hp] at hb
      cases hb
  | ok packed =>
      rw [hp] at hb
      cases hb
      exact ⟨packed, rfl, rfl, rfl⟩

lemma decodePayload_of_build {h : RouteHeader} {calls : List (ExecutorCall Bytes)}
    {payload : List Byte} {hash : BitVec 256}
    (hb : buildPackedRoutePayload keccak256 h calls = .ok (payload, hash)) :
    decodePayload payload = some ((h, hash), calls) := by
  rcases buildPackedRoutePayload_ok hb with ⟨packed, hp, -, rfl⟩
  have hread : Reads readPayload (packHeader h hash ++ packed) ((h, hash), calls) :=
    (reads_header h hash).bind ((reads_packExecutorCalls hp).map fun cs => ((h, hash), cs))
  rw [decodePayload, hread.run_finish]
  rfl

/-- Every payload that is built decodes to the header and the calls it was built from.  So no other
header or call list packs to the same bytes, and another call list has the same route hash only where
the hash function takes the packed bytes of both lists, which differ, to one value. -/
theorem packedPayload_decodable {h : RouteHeader} {calls : List (ExecutorCall Bytes)}
    {payload : List Byte} {hash : BitVec 256}
    (hb : buildPackedRoutePayload keccak256 h calls = .ok (payload, hash)) :
    decodePayload payload = some ((h, hash), calls) ∧
      (∀ h' calls' hash', buildPackedRoutePayload keccak256 h' calls' = .ok (payload, hash') →
        h' = h ∧ calls' = calls) ∧
      (∀ h' calls' payload', buildPackedRoutePayload keccak256 h' calls' = .ok (payload', hash) →
        calls' ≠ calls → ∃ packed packed', packExecutorCalls calls = .ok packed ∧
          packExecutorCalls calls' = .ok packed' ∧ packed' ≠ packed ∧
            keccak256 packed' = keccak256 packed) := by
  refine ⟨decodePayload_of_build hb, ?_, ?_⟩
  · intro h' calls' hash' hb'
    have heq := (decodePayload_of_build hb').symm.trans (decodePayload_of_build hb)
    simp only [Option.some.injEq, Prod.mk.injEq] at heq
    exact ⟨heq.1.1, heq.2⟩
  · intro h' calls' payload' hb' hne
    rcases buildPackedRoutePayload_ok hb with ⟨packed, hp, hhash, -⟩
    rcases buildPackedRoutePayload_ok hb' with ⟨packed', hp', hhash', -⟩
    refine ⟨packed, packed', hp, hp', ?_, hhash'.symm.trans hhash⟩
    rintro rfl
    have heq := (decodeCalls_packExecutorCalls hp').symm.trans (decodeCalls_packExecutorCalls hp)
    exact hne (Option.some.inj heq)

/-- A call with three bytes of data. -/
def threeByteCall : ExecutorCall Bytes where
  target := 0x1111111111111111111111111111111111111111#160
  value := 7#256
  data := ⟨[0xaa#8, 0xbb#8, 0xcc#8], by decide⟩

/-- A loan of one token unit that is due back with a profit of at least ten. -/
def smallLoan : RouteHeader where
  flashToken := 0x0d500b1d8e8ef31e21c99d1db9a6444d3adf1270#160
  flashAmount := 1000000000000000000#256
  profitToken := 0x0d500b1d8e8ef31e21c99d1db9a6444d3adf1270#160
  minProfit := 10#256
  deadline := 1700000000#256

/-- The Keccak-256 hash of `threeByteCall`, packed. -/
def threeByteCallHash : BitVec 256 :=
  0x7f5099abd980eca4d8eb2cb417e75199b31ab1c84aead83189bffbab8585f59d#256

theorem packedPayload_decodable_threeByteCall :
    ∃ payload,
      buildPackedRoutePayload (fun _ => threeByteCallHash) smallLoan [threeByteCall] =
        .ok (payload, threeByteCallHash) ∧
      decodePayload payload = some ((smallLoan, threeByteCallHash), [threeByteCall]) := by
  have hb : buildPackedRoutePayload (fun _ => threeByteCallHash) smallLoan [threeByteCall] =
      .ok (packHeader smallLoan threeByteCallHash ++
        (toBe 32 1 ++ [threeByteCall].flatMap packCall), threeByteCallHash) := rfl
  exact ⟨_, hb, (packedPayload_decodable hb).1⟩

end PolygonArb
