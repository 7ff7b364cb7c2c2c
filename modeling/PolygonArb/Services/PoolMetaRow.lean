import PolygonArb.Pipeline.FetchTargets
import PolygonArb.Services.Calldata
import PolygonArb.Services.Payload

/-!
# Rows of the pool index

`parse_pool_meta_row` and `retain_routable_pool` of `services/discovery.rs`: how a row of `PoolMeta` becomes a
discovered pool, with the label functions of `core/protocol.rs` it asks.

A pool that is made of a row is well formed, its key is the row's id in one spelling, and its address is the
one its id or the row's address column names (`parsed_pool_wellFormed`).
-/

namespace PolygonArb

/-- A discovered pool with all its fields. -/
structure PoolRecord extends DiscoveredPool where
  poolKey : String
  protocolLabel : String
  poolId : Option (BitVec 256)
  poolIdVerified : Bool
  hooks : Option Address
  poolType : Option String
  createdBlock : ℕ

/-- The columns of a row beside its id and its blocks. -/
structure PoolMetaColumns where
  address : Option String
  protocol : String
  tokens : List String
  fee : Option ℤ
  tickSpacing : Option ℤ
  poolId : Option String
  hooks : Option String
  poolType : Option String
  deriving DecidableEq

/-! ## Labels -/

def isKnownProtocolLabel (raw : String) : Bool :=
  isAlgebraProtocolLabel raw || containsIgnoreCase raw "woofi" || containsIgnoreCase raw "dodo" ||
    containsIgnoreCase raw "balancer" || containsIgnoreCase raw "curve" || containsIgnoreCase raw "elastic" ||
    containsIgnoreCase raw "v2" || containsIgnoreCase raw "v3" || containsIgnoreCase raw "v4"

def normalizeProtocol (raw : String) : Option ProtocolType :=
  if containsIgnoreCase raw "woofi" then some .woofi
  else if containsIgnoreCase raw "dodo" then some .dodo
  else if containsIgnoreCase raw "balancer" then some .balancerV2
  else if containsIgnoreCase raw "curve" then
    if containsIgnoreCase raw "crypto" then some .curveCrypto else some .curveStable
  else if isAlgebraProtocolLabel raw then some .uniswapV3
  else if containsIgnoreCase raw "v4" then some .uniswapV4
  else if containsIgnoreCase raw "v3" || containsIgnoreCase raw "elastic" then some .uniswapV3
  else if containsIgnoreCase raw "v2" then some .uniswapV2
  else none

def isCurveProtocol : ProtocolType → Bool
  | .curveStable => true
  | .curveCrypto => true
  | _ => false

def resolveProtocolFromPg (protocol : String) (poolType : Option String) : Option ProtocolType :=
  (normalizeProtocol protocol).map fun base =>
    if isCurveProtocol base then
      if (poolType.any fun t => containsIgnoreCase t "crypto") || containsIgnoreCase protocol "crypto" then
        .curveCrypto
      else .curveStable
    else base

def normalizeBalancerPoolType (poolType : Option String) : Option String :=
  poolType.bind fun t =>
    if containsIgnoreCase t "stable" then some "stable"
    else if containsIgnoreCase t "linear" then some "linear"
    else if containsIgnoreCase t "weighted" then some "weighted"
    else none

/-- `fee_to_bps`; `rawFee` is a `u32`. -/
def feeToBps (label : String) (rawFee : Option ℕ) : ℕ :=
  let pipsStyle := containsIgnoreCase label "v4" || containsIgnoreCase label "v3" ||
    containsIgnoreCase label "elastic" || isAlgebraProtocolLabel label
  let raw := rawFee.getD (if pipsStyle then 3000 else 30)
  if normalizeProtocol label = some .uniswapV4 ∧ rawFee = some 0 then 0
  else if containsIgnoreCase label "curve" then
    if raw = 0 then 30 else if raw < 10000 then raw else min (raw / 1000000) 9999
  else if raw = 0 ∨ 0x800000 ≤ raw then 30
  else min (raw / if pipsStyle then 100 else 1) 9999

/-! ## Hex -/

def hexValue (c : Char) : Option ℕ :=
  if '0' ≤ c ∧ c ≤ '9' then some (c.toNat - '0'.toNat)
  else if 'a' ≤ c ∧ c ≤ 'f' then some (c.toNat - 'a'.toNat + 10)
  else if 'A' ≤ c ∧ c ≤ 'F' then some (c.toNat - 'A'.toNat + 10)
  else none

def isHexdigit (c : Char) : Bool := (hexValue c).isSome

def ofHex (digits : List Char) : ℕ := digits.foldl (fun n c => n * 16 + (hexValue c).getD 0) 0

/-- `strip_prefix("0x")`. -/
def stripHexMark : List Char → List Char
  | '0' :: 'x' :: rest => rest
  | digits => digits

/-- So many bytes from their digits. -/
def parseHex (bytes : ℕ) (s : List Char) : Option ℕ :=
  let digits := stripHexMark s
  if digits.length = 2 * bytes ∧ digits.all isHexdigit = true then some (ofHex digits) else none

def parseHexAddress (s : String) : Option Address := (parseHex 20 s.toList).map (BitVec.ofNat 160)

def parseHexBytes32 (s : String) : Option (BitVec 256) := (parseHex 32 s.toList).map (BitVec.ofNat 256)

/-! ## The identity of a pool -/

/-- The digits of an id. -/
def keyDigits (id : String) : List Char := stripHexMark (id.toList.map Char.toLower)

/-- The key of an id. -/
def poolKeyOfId (id : String) : Option String :=
  let hex := keyDigits id
  if (hex.length = 40 ∨ hex.length = 64) ∧ hex.all isHexdigit = true then some ("0x" ++ String.ofList hex) else none

/-- The address column, where it is a plausible contract. -/
def explicitAddress (addressRaw : Option String) : Option Address :=
  (addressRaw.bind fun raw => parseHexAddress (String.ofList (raw.toList.map Char.toLower))).filter
    isPlausibleContractAddress

/-- `synthetic` is the address made of a pool id, its hash's last bytes. -/
def resolvePoolIdentity (synthetic : BitVec 256 → Address) (id : String) (poolIdRaw addressRaw : Option String) :
    Option (String × Address × Option (BitVec 256)) :=
  (poolKeyOfId id).bind fun key =>
    if (keyDigits id).length = 64 then
      (parseHexBytes32 key).map fun poolId => (key, synthetic poolId, some poolId)
    else
      (parseHexAddress key).bind fun address =>
        if isPlausibleContractAddress address = false then none
        else some (key, (explicitAddress addressRaw).getD address, poolIdRaw.bind parseHexBytes32)

/-! ## The row -/

/-- How many tokens a pool of the protocol has. -/
def supportedTokenCount : ProtocolType → ℕ → Bool
  | .curveStable, n => 2 ≤ n && n ≤ 8
  | .curveCrypto, n => 2 ≤ n && n ≤ 8
  | .balancerV2, n => 2 ≤ n && n ≤ 256
  | .woofi, n => 2 ≤ n && n ≤ 256
  | _, n => n = 2

def hasSupportedTokenShape (protocol : ProtocolType) (tokens : List Address) : Bool :=
  tokens.all isPlausibleContractAddress && decide tokens.Nodup && supportedTokenCount protocol tokens.length

def isSupportedV4Pool (protocol : ProtocolType) (hooks : Option Address) : Bool :=
  match protocol with
  | .uniswapV4 => hooks.all isSupportedV4Hook
  | _ => true

/-- A V4 row has a fee in pips and a tick spacing. -/
def hasV4Fields (row : PoolMetaColumns) : Bool :=
  (row.fee.any fun fee => 0 ≤ fee && fee < 0x800000) && row.tickSpacing.isSome

/-- `resolve_v4_pool_id_from_key`. -/
def resolveV4PoolIdFromKey (poolKey : String) : Option (BitVec 256) :=
  if poolKey.length = 66 then parseHexBytes32 poolKey else none

/-- `resolve_v4_pool_id`. -/
def resolveV4PoolId (pool : PoolRecord) : Option (BitVec 256) :=
  pool.poolId.or (resolveV4PoolIdFromKey pool.poolKey)

/-- What a row of the protocol is rejected for. -/
def rejectsRow (protocol : ProtocolType) (tokens : List Address) (row : PoolMetaColumns) : Bool :=
  !hasSupportedTokenShape protocol tokens || row.fee.any (· < 0) ||
    (protocol = .uniswapV4 && !hasV4Fields row) ||
    (protocol = .balancerV2 && row.poolType.isSome && (normalizeBalancerPoolType row.poolType).isNone)

/-- The pool of a row, before a V4 pool is completed. -/
def recordOfRow (row : PoolMetaColumns) (protocol : ProtocolType) (tokens : List Address)
    (identity : String × Address × Option (BitVec 256)) (createdBlock : ℕ) : PoolRecord where
  address := identity.2.1
  protocol := protocol
  tokens := tokens
  feeBps := feeToBps row.protocol (row.fee.map Int.toNat)
  tickSpacing := row.tickSpacing
  poolKey := identity.1
  protocolLabel := row.protocol
  poolId := identity.2.2
  poolIdVerified := protocol = .balancerV2 && identity.2.2.isSome
  hooks := row.hooks.bind parseHexAddress
  poolType := if protocol = .balancerV2 then normalizeBalancerPoolType row.poolType else row.poolType
  createdBlock := createdBlock

/-- A V4 pool has a pool id, and hooks that do not touch swaps. -/
def completeV4 (pool : PoolRecord) : Option PoolRecord :=
  (resolveV4PoolId pool).bind fun poolId =>
    let hooks := pool.hooks.getD 0
    if isSupportedV4Pool .uniswapV4 (some hooks) then some { pool with poolId := some poolId, hooks := some hooks }
    else none

/-- `parse_pool_meta_row`; the block is the row's, not below zero. -/
def parsePoolMetaRow (synthetic : BitVec 256 → Address) (id : String) (createdBlock : ℕ)
    (row : PoolMetaColumns) : Option PoolRecord :=
  (row.tokens.mapM parseHexAddress).bind fun tokens =>
    (resolvePoolIdentity synthetic id row.poolId row.address).bind fun identity =>
      if tokens.length < 2 then none
      else if isKnownProtocolLabel row.protocol = false then none
      else
        (resolveProtocolFromPg row.protocol row.poolType).bind fun protocol =>
          if rejectsRow protocol tokens row then none
          else
            let pool := recordOfRow row protocol tokens identity createdBlock
            if protocol = .uniswapV4 then completeV4 pool else some pool

/-! ## Routable pools -/

/-- The switches of the environment. -/
structure V2Switches where
  quickswap : Bool
  uniswap : Bool
  sushiswap : Bool

/-- `is_routable_pool`. -/
def isRoutablePool (env : V2Switches) (pool : PoolRecord) : Bool :=
  isFetchableProtocol pool.protocol && hasSupportedTokenShape pool.protocol pool.tokens &&
    isSupportedV4Pool pool.protocol pool.hooks &&
    (env.quickswap || !(containsIgnoreCase pool.protocolLabel "quickswap_v2" ||
      containsIgnoreCase pool.protocolLabel "quick_v2")) &&
    (env.uniswap || !containsIgnoreCase pool.protocolLabel "uniswap_v2") &&
    (env.sushiswap || !(containsIgnoreCase pool.protocolLabel "sushiswap_v2" ||
      containsIgnoreCase pool.protocolLabel "sushi_v2"))

/-- `retain_routable_pool`. -/
def retainRoutablePool (env : V2Switches) (pool : PoolRecord) : Option PoolRecord :=
  if isRoutablePool env pool then some pool else none

/-! ## What a pool of a row is -/

/-- Digits as keys have them. -/
structure KeyHex (hex : List Char) : Prop where
  length : hex.length = 40 ∨ hex.length = 64
  digits : ∀ c ∈ hex, isHexdigit c = true
  lower : ∀ c ∈ hex, c.toLower = c

/-- What an id with so many digits, and the columns beside it, say of the address and the pool id. -/
structure IdentifiedBy (synthetic : BitVec 256 → Address) (hex : List Char) (poolIdRaw addressRaw : Option String)
    (address : Address) (poolId : Option (BitVec 256)) : Prop where
  short : hex.length = 40 → isPlausibleContractAddress address = true ∧
    address = (explicitAddress addressRaw).getD (BitVec.ofNat 160 (ofHex hex)) ∧
    poolId = poolIdRaw.bind parseHexBytes32
  long : hex.length = 64 → poolId = some (BitVec.ofNat 256 (ofHex hex)) ∧
    address = synthetic (BitVec.ofNat 256 (ofHex hex))

/-- What every pool that is made of a row satisfies. -/
structure PoolRecord.WellFormed (synthetic : BitVec 256 → Address) (row : PoolMetaColumns) (p : PoolRecord) :
    Prop where
  contracts : ∀ token ∈ p.tokens, isPlausibleContractAddress token = true
  nodup : p.tokens.Nodup
  count : supportedTokenCount p.protocol p.tokens.length = true
  fee : p.feeBps < 10000
  key : ∃ hex, KeyHex hex ∧ p.poolKey = "0x" ++ String.ofList hex ∧
    IdentifiedBy synthetic hex row.poolId row.address p.address p.poolId
  v4 : p.protocol = .uniswapV4 → p.poolId.isSome ∧ p.tickSpacing.isSome ∧
    ∃ hooks, p.hooks = some hooks ∧ isSupportedV4Hook hooks = true
  balancer : p.protocol = .balancerV2 → (∀ t, p.poolType = some t → t = "stable" ∨ t = "linear" ∨ t = "weighted") ∧
    p.poolIdVerified = p.poolId.isSome

section Key

variable {id key : String} {hex : List Char}

lemma toNat_toLower (c : Char) :
    c.toLower.toNat = if 65 ≤ c.toNat ∧ c.toNat ≤ 90 then c.toNat + 32 else c.toNat := by
  rw [Char.toLower]
  split_ifs with hupper hrange hrange
  · have hle : c.val ≤ 90 := hupper.2
    show (c.val + 32).toNat = c.val.toNat + 32
    rw [UInt32.toNat_add]
    have hnat : c.val.toNat ≤ 90 := hle
    show (c.val.toNat + 32) % 2 ^ 32 = c.val.toNat + 32
    omega
  · exact absurd ⟨hupper.1, hupper.2⟩ hrange
  · exact absurd ⟨hrange.1, hrange.2⟩ hupper
  · rfl

lemma toLower_toLower (c : Char) : c.toLower.toLower = c.toLower := by
  refine Char.toNat_inj.mp ?_
  rw [toNat_toLower c.toLower, toNat_toLower c]
  split_ifs <;> omega

lemma stripHexMark_subset (digits : List Char) : stripHexMark digits ⊆ digits := by
  intro c hc
  rw [stripHexMark.eq_def] at hc
  split at hc
  · exact List.mem_cons_of_mem _ (List.mem_cons_of_mem _ hc)
  · exact hc

/-- The key of an id is made of its digits. -/
lemma poolKeyOfId_eq_some (h : poolKeyOfId id = some key) :
    KeyHex (keyDigits id) ∧ key = "0x" ++ String.ofList (keyDigits id) := by
  simp only [poolKeyOfId] at h
  split_ifs at h with hdigits
  rw [Option.some.injEq] at h
  refine ⟨⟨hdigits.1, ?_, ?_⟩, h.symm⟩
  · exact fun c hc => List.all_eq_true.mp hdigits.2 c hc
  · intro c hc
    obtain ⟨c', -, rfl⟩ := List.mem_map.mp (stripHexMark_subset _ hc)
    exact toLower_toLower c'

lemma keyDigits_key (h : KeyHex hex) : keyDigits ("0x" ++ String.ofList hex) = hex := by
  have hlower : hex.map Char.toLower = hex := by
    calc hex.map Char.toLower = hex.map id := List.map_congr_left h.lower
      _ = hex := List.map_id hex
  have hmark : ("0x" ++ String.ofList hex).toList = '0' :: 'x' :: hex := by simp
  have hzero : Char.toLower '0' = '0' := by decide
  have hx : Char.toLower 'x' = 'x' := by decide
  rw [keyDigits, hmark, List.map_cons, List.map_cons, hlower, hzero, hx, stripHexMark]

/-- A key is its own key. -/
lemma poolKeyOfId_key (h : KeyHex hex) :
    poolKeyOfId ("0x" ++ String.ofList hex) = some ("0x" ++ String.ofList hex) := by
  simp only [poolKeyOfId, keyDigits_key h]
  rw [if_pos ⟨h.length, List.all_eq_true.mpr h.digits⟩]

/-- What a key is read as. -/
lemma parseHex_key (h : KeyHex hex) (bytes : ℕ) :
    parseHex bytes ("0x" ++ String.ofList hex).toList = if hex.length = 2 * bytes then some (ofHex hex) else none := by
  have hmark : ("0x" ++ String.ofList hex).toList = '0' :: 'x' :: hex := by simp
  simp only [parseHex, hmark, stripHexMark, List.all_eq_true.mpr h.digits, and_true]

end Key

section Identity

variable {synthetic : BitVec 256 → Address} {id key : String} {poolIdRaw addressRaw : Option String}
  {address : Address} {poolId : Option (BitVec 256)}

lemma isPlausible_of_explicitAddress (h : explicitAddress addressRaw = some address) :
    isPlausibleContractAddress address = true :=
  (Option.filter_eq_some_iff.mp h).2

lemma resolvePoolIdentity_eq_some
    (h : resolvePoolIdentity synthetic id poolIdRaw addressRaw = some (key, address, poolId)) :
    poolKeyOfId id = some key ∧ ∃ hex, KeyHex hex ∧ key = "0x" ++ String.ofList hex ∧
      IdentifiedBy synthetic hex poolIdRaw addressRaw address poolId := by
  obtain ⟨key', hkey, h⟩ := Option.bind_eq_some_iff.mp h
  obtain ⟨hhex, rfl⟩ := poolKeyOfId_eq_some hkey
  set hex := keyDigits id with hdigits
  split_ifs at h with hlength
  · obtain ⟨value, hvalue, heq⟩ := Option.map_eq_some_iff.mp h
    simp only [Prod.mk.injEq] at heq
    obtain ⟨rfl, rfl, rfl⟩ := heq
    rw [parseHexBytes32, parseHex_key hhex, if_pos hlength, Option.map_some, Option.some.injEq] at hvalue
    refine ⟨hkey, hex, hhex, rfl, ?_, ?_⟩
    · intro hshort
      omega
    · intro _
      rw [hvalue]
      exact ⟨rfl, rfl⟩
  · have hshort : hex.length = 40 := hhex.length.resolve_right hlength
    rw [parseHexAddress, parseHex_key hhex, if_pos hshort, Option.map_some, Option.bind_some] at h
    split_ifs at h with hcontracts
    simp only [Option.some.injEq, Prod.mk.injEq] at h
    obtain ⟨rfl, rfl, rfl⟩ := h
    refine ⟨hkey, hex, hhex, rfl, ?_, fun hlong => absurd hlong hlength⟩
    intro _
    refine ⟨?_, rfl, rfl⟩
    cases hexplicit : explicitAddress addressRaw with
    | none =>
        rw [Option.getD_none]
        simpa using hcontracts
    | some explicit =>
        rw [Option.getD_some]
        exact isPlausible_of_explicitAddress hexplicit

end Identity

lemma feeToBps_lt (label : String) (rawFee : Option ℕ) : feeToBps label rawFee < 10000 := by
  simp only [feeToBps]
  split_ifs <;> omega

section Row

variable {synthetic : BitVec 256 → Address} {id : String} {createdBlock : ℕ} {row : PoolMetaColumns}
  {p : PoolRecord}

/-- What a pool comes from. -/
lemma parsePoolMetaRow_eq_some (h : parsePoolMetaRow synthetic id createdBlock row = some p) :
    ∃ tokens identity protocol, resolvePoolIdentity synthetic id row.poolId row.address = some identity ∧
      rejectsRow protocol tokens row = false ∧
      ((protocol ≠ .uniswapV4 ∧ p = recordOfRow row protocol tokens identity createdBlock) ∨
        protocol = .uniswapV4 ∧ completeV4 (recordOfRow row protocol tokens identity createdBlock) = some p) := by
  obtain ⟨tokens, -, h⟩ := Option.bind_eq_some_iff.mp h
  obtain ⟨identity, hidentity, h⟩ := Option.bind_eq_some_iff.mp h
  split_ifs at h
  obtain ⟨protocol, -, h⟩ := Option.bind_eq_some_iff.mp h
  split_ifs at h with hrejects hv4
  · exact ⟨tokens, identity, protocol, hidentity, by simpa using hrejects, .inr ⟨hv4, h⟩⟩
  · rw [Option.some.injEq] at h
    exact ⟨tokens, identity, protocol, hidentity, by simpa using hrejects, .inl ⟨hv4, h.symm⟩⟩

/-- Completing a V4 pool only adds to it. -/
lemma completeV4_eq_some {pool : PoolRecord} (h : completeV4 pool = some p) :
    ∃ poolId hooks, resolveV4PoolId pool = some poolId ∧ isSupportedV4Hook hooks = true ∧
      p = { pool with poolId := some poolId, hooks := some hooks } := by
  obtain ⟨poolId, hpoolId, h⟩ := Option.bind_eq_some_iff.mp h
  dsimp only at h
  split_ifs at h with hhooks
  rw [Option.some.injEq] at h
  exact ⟨poolId, _, hpoolId, by simpa [isSupportedV4Pool] using hhooks, h.symm⟩

/-- A row is accepted under the key of its id, and its block is kept. -/
lemma poolKey_of_parse (h : parsePoolMetaRow synthetic id createdBlock row = some p) :
    poolKeyOfId id = some p.poolKey ∧ p.createdBlock = createdBlock := by
  obtain ⟨tokens, ⟨key, address, poolId⟩, protocol, hidentity, -, hpool⟩ := parsePoolMetaRow_eq_some h
  have hkey := (resolvePoolIdentity_eq_some hidentity).1
  rcases hpool with ⟨-, rfl⟩ | ⟨-, hv4⟩
  · exact ⟨hkey, rfl⟩
  · obtain ⟨poolId, hooks, -, -, rfl⟩ := completeV4_eq_some hv4
    exact ⟨hkey, rfl⟩

lemma normalizeBalancerPoolType_eq_some {poolType : Option String} {t : String}
    (h : normalizeBalancerPoolType poolType = some t) : t = "stable" ∨ t = "linear" ∨ t = "weighted" := by
  obtain ⟨raw, -, h⟩ := Option.bind_eq_some_iff.mp h
  split_ifs at h
  · exact .inl (Option.some.inj h).symm
  · exact .inr (.inl (Option.some.inj h).symm)
  · exact .inr (.inr (Option.some.inj h).symm)

lemma wellFormed_of_parse (h : parsePoolMetaRow synthetic id createdBlock row = some p) :
    p.WellFormed synthetic row := by
  obtain ⟨tokens, ⟨key, address, poolId⟩, protocol, hidentity, hrejects, hpool⟩ := parsePoolMetaRow_eq_some h
  obtain ⟨-, hex, hhex, hkey, hidentified⟩ := resolvePoolIdentity_eq_some hidentity
  simp only [rejectsRow, Bool.or_eq_false_iff, Bool.not_eq_false'] at hrejects
  obtain ⟨⟨⟨hshape, -⟩, hv4fields⟩, -⟩ := hrejects
  simp only [hasSupportedTokenShape, Bool.and_eq_true, List.all_eq_true, decide_eq_true_eq] at hshape
  obtain ⟨⟨hcontracts, hnodup⟩, hcount⟩ := hshape
  rcases hpool with ⟨hnot, rfl⟩ | ⟨rfl, hcomplete⟩
  · refine ⟨hcontracts, hnodup, hcount, feeToBps_lt _ _, ⟨hex, hhex, hkey, hidentified⟩, ?_, ?_⟩
    · intro hv4
      exact absurd hv4 hnot
    · intro hbalancer
      have hprotocol : protocol = .balancerV2 := hbalancer
      refine ⟨?_, ?_⟩
      · intro t ht
        simp only [recordOfRow, if_pos hprotocol] at ht
        exact normalizeBalancerPoolType_eq_some ht
      · simp [recordOfRow, hprotocol]
  · obtain ⟨resolved, hooks, hresolved, hhooks, rfl⟩ := completeV4_eq_some hcomplete
    refine ⟨hcontracts, hnodup, hcount, feeToBps_lt _ _, ⟨hex, hhex, hkey, ?_, ?_⟩, ?_, ?_⟩
    · intro hlength
      obtain ⟨hlooks, haddress, rfl⟩ := hidentified.short hlength
      refine ⟨hlooks, haddress, ?_⟩
      -- the key is too short to stand in for the pool id
      have hnotId : resolveV4PoolIdFromKey key = none := by
        have hkeyLength : key.length = 42 := by
          rw [hkey, String.length_append, String.length_ofList (l := hex), hlength]
          rfl
        rw [resolveV4PoolIdFromKey, if_neg (by omega)]
      rw [resolveV4PoolId] at hresolved
      simpa [recordOfRow, hnotId] using hresolved.symm
    · intro hlength
      obtain ⟨rfl, haddress⟩ := hidentified.long hlength
      refine ⟨?_, haddress⟩
      simpa [resolveV4PoolId, recordOfRow] using hresolved.symm
    · intro _
      have hfields : hasV4Fields row = true := by simpa using hv4fields
      simp only [hasV4Fields, Bool.and_eq_true] at hfields
      exact ⟨rfl, hfields.2, hooks, rfl, hhooks⟩
    · intro hbalancer
      exact absurd hbalancer (by simp [recordOfRow])

/-- Whatever a row says, the pool that is made of it is well formed, its key is the one spelling of the row's
id, and its address and pool id are those that the id or the row's columns name. -/
theorem parsed_pool_wellFormed (h : parsePoolMetaRow synthetic id createdBlock row = some p) :
    p.WellFormed synthetic row ∧ poolKeyOfId id = some p.poolKey ∧ poolKeyOfId p.poolKey = some p.poolKey := by
  have hwellFormed := wellFormed_of_parse h
  obtain ⟨hex, hhex, hkey, -⟩ := hwellFormed.key
  refine ⟨hwellFormed, (poolKey_of_parse h).1, ?_⟩
  rw [hkey]
  exact poolKeyOfId_key hhex

/-- A V4 row in mixed case. -/
def v4Row : PoolMetaColumns where
  address := none
  protocol := "UNISWAP_V4"
  tokens := ["0x0d500b1d8e8ef31e21c99d1db9a6444d3adf1270", "0x2791Bca1f2de4661ED88A30C99A7a9449Aa84174"]
  fee := some 500
  tickSpacing := some 10
  poolId := none
  hooks := none
  poolType := none

/-- A V2 row whose address column is not its id. -/
def movedRow : PoolMetaColumns :=
  { v4Row with
    address := some "0x2222222222222222222222222222222222222222", protocol := "SUSHISWAP_V2", fee := none,
    tickSpacing := none }

theorem parsed_pool_wellFormed_v4Row :
    (∃ p, parsePoolMetaRow (fun poolId => poolId.setWidth 160)
      "0x00000000000000000000000000000000000000000000000000000000000000AA" 7 v4Row = some p ∧
      p.poolKey = "0x00000000000000000000000000000000000000000000000000000000000000aa" ∧ p.feeBps = 5 ∧
      p.WellFormed (fun poolId => poolId.setWidth 160) v4Row) ∧
    ∃ p, parsePoolMetaRow (fun poolId => poolId.setWidth 160)
      "1111111111111111111111111111111111111111" 7 movedRow = some p ∧
      p.poolKey = "0x1111111111111111111111111111111111111111" ∧
      p.address = 0x2222222222222222222222222222222222222222#160 ∧
      p.WellFormed (fun poolId => poolId.setWidth 160) movedRow := by
  have hv4 : (parsePoolMetaRow (fun poolId => poolId.setWidth 160)
      "0x00000000000000000000000000000000000000000000000000000000000000AA" 7 v4Row).map
        (fun p => (p.poolKey, p.feeBps)) =
      some ("0x00000000000000000000000000000000000000000000000000000000000000aa", 5) := by decide +kernel
  have hmoved : (parsePoolMetaRow (fun poolId => poolId.setWidth 160)
      "1111111111111111111111111111111111111111" 7 movedRow).map (fun p => (p.poolKey, p.address)) =
      some ("0x1111111111111111111111111111111111111111",
        0x2222222222222222222222222222222222222222#160) := by decide +kernel
  obtain ⟨p, hp, hfacts⟩ := Option.map_eq_some_iff.mp hv4
  obtain ⟨q, hq, hfacts'⟩ := Option.map_eq_some_iff.mp hmoved
  rw [Prod.mk.injEq] at hfacts hfacts'
  exact ⟨⟨p, hp, hfacts.1, hfacts.2, (parsed_pool_wellFormed hp).1⟩,
    ⟨q, hq, hfacts'.1, hfacts'.2, (parsed_pool_wellFormed hq).1⟩⟩

end Row

end PolygonArb
