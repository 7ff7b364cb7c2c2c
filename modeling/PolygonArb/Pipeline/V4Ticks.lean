import PolygonArb.Pipeline.TickHydration

/-!
# Ticks of V4 pools

`enrich_v4_ticks` of `pipeline/tick_fetch.rs` with the slots of `core/v4_storage.rs`: the words of the tick
bitmap are read out of the storage of the pool manager, then the ticks whose bits are set; pools that stay
without ticks are read once more with a wider window.

If the node returns what is stored and the reads fit the budget, what is stored for a pool are the ticks of the
window, each with its liquidity (`v4_hydration_exact`).
-/

namespace PolygonArb

open Word ByteFormat

/-- `FixedBytes<32>`, the id of a V4 pool. -/
abbrev PoolId := BitVec 256

/-! ## Slots -/

section Slots

variable (keccak256 : List Byte → BitVec 256)

def v4TicksOffset : ℕ := 4

def v4TickBitmapOffset : ℕ := 5

def computeV4PoolFieldSlot (poolId : PoolId) (offset : ℕ) : BitVec 256 :=
  keccak256 (toBe 32 poolId.toNat ++ List.replicate 28 0 ++ toBe 4 6) + BitVec.ofNat 256 offset

def mappingSlot (key : List Byte) (mappingBase : BitVec 256) : BitVec 256 :=
  keccak256 (key ++ toBe 32 mappingBase.toNat)

def signExtendI16 (value : BitVec 16) : List Byte :=
  List.replicate 30 (if value.msb then 0xff else 0) ++ toBe 2 value.toNat

def signExtendI24 (value : BitVec 32) : List Byte :=
  List.replicate 29 (if value.msb then 0xff else 0) ++ (toBe 4 value.toNat).drop 1

def computeV4TickBitmapSlot (poolId : PoolId) (word : BitVec 16) : BitVec 256 :=
  mappingSlot keccak256 (signExtendI16 word) (computeV4PoolFieldSlot keccak256 poolId v4TickBitmapOffset)

def computeV4TickInfoSlot (poolId : PoolId) (tick : BitVec 32) : BitVec 256 :=
  mappingSlot keccak256 (signExtendI24 tick) (computeV4PoolFieldSlot keccak256 poolId v4TicksOffset)

end Slots

/-- Gross and signed net liquidity out of a packed tick. -/
def decodeV4TickLiquidity (raw : U256) : ℕ × ℤ :=
  ((raw &&& BitVec.ofNat 256 (2 ^ 128 - 1)).toNat,
    (BitVec.ofNat 128 (ofBe ((toBe 32 raw.toNat).take 16))).toInt)

/-- The last 32 bytes as a word. -/
def decodeAbiWord (bytes : List Byte) : Option U256 :=
  if bytes.length < 32 then none else some (BitVec.ofNat 256 (ofBe (bytes.drop (bytes.length - 32))))

/-! ## The pass -/

structure V4SpanInfo where
  idx : PoolIndex
  poolId : PoolId
  spacing : ℤ
  wordMin : ℤ
  liquidity : ℕ

/-- The V4 targets whose state has no ticks. -/
def stillTicklessV4 (arena : StateArena) (targets : List (PoolIndex × PoolId)) :
    List (PoolIndex × PoolId) :=
  targets.filter fun target => (clPool .v4 arena target.1).any fun s => s.ticks.isEmpty

section Pass

variable (keccak256 : List Byte → BitVec 256) (order : TieOrder)

/-- The selector of `extsload(bytes32)`. -/
def extsloadSelector : List Byte := [0x1e, 0x2e, 0xae, 0xaf]

def encodeExtsload (slot : BitVec 256) : List Byte := extsloadSelector ++ toBe 32 slot.toNat

/-- A read of one slot of the pool manager. -/
def extsloadItem (slot : BitVec 256) : MulticallItem :=
  ⟨uniswapV4PoolManager, encodeExtsload slot⟩

def v4BitmapItem (poolId : PoolId) (word : ℤ) : MulticallItem :=
  extsloadItem (computeV4TickBitmapSlot keccak256 poolId (BitVec.ofInt 16 word))

def v4TickItem (owner : PoolIndex × PoolId) (tick : ℤ) : MulticallItem :=
  extsloadItem (computeV4TickInfoSlot keccak256 owner.2 (BitVec.ofInt 32 tick))

/-- The bitmap words to read for a target. -/
def v4Request (arena : StateArena) (wordRange : ℤ) (target : PoolIndex × PoolId) :
    Option (V4SpanInfo × List MulticallItem) :=
  (clPool .v4 arena target.1).map fun s =>
    let spacing := max s.tickSpacing 1
    let centerWord := clTickBitmapCenterWord s.tick spacing
    (⟨target.1, target.2, spacing, centerWord - wordRange, s.liquidity⟩,
      (windowWords centerWord wordRange).map (v4BitmapItem keccak256 target.2))

def v4Requests (arena : StateArena) (wordRange : ℤ) (targets : List (PoolIndex × PoolId)) :
    List (V4SpanInfo × List MulticallItem) :=
  targets.filterMap (v4Request keccak256 arena wordRange)

def v4Window (bitmaps : List (Option (List Byte))) (span : Span V4SpanInfo) :
    PoolWindow (PoolIndex × PoolId) where
  owner := (span.info.idx, span.info.poolId)
  spacing := span.info.spacing
  wordMin := span.info.wordMin
  wordCount := span.stop - span.start
  words offset := (span.answer bitmaps offset).bind decodeAbiWord

/-- The windows of the targets, the pools with the most liquidity first. -/
def v4Windows (arena : StateArena) (wordRange : ℤ) (targets : List (PoolIndex × PoolId))
    (bitmaps : List (Option (List Byte))) : List (PoolWindow (PoolIndex × PoolId)) :=
  (order.byLiquidity (fun span => span.info.liquidity)
    (layOut (v4Requests keccak256 arena wordRange targets) 0)).map (v4Window bitmaps)

/-- A tick with liquidity, out of the answer to its read. -/
def v4TickEntry (owner : (PoolIndex × PoolId) × ℤ) (bytes : Option (List Byte)) : Option (PoolIndex × V3Tick) :=
  (bytes.bind decodeAbiWord).bind fun raw =>
    let (liquidityGross, liquidityNet) := decodeV4TickLiquidity raw
    if 0 < liquidityGross then some (owner.1.1, ⟨owner.2, liquidityGross, liquidityNet⟩) else none

def v4TickEntries (owners : List ((PoolIndex × PoolId) × ℤ)) (states : List (Option (List Byte))) :
    List (PoolIndex × V3Tick) :=
  (owners.zip states).filterMap fun (owner, bytes) => v4TickEntry owner bytes

def tickItems (owners : List ((PoolIndex × PoolId) × ℤ)) : List MulticallItem :=
  owners.map fun owner => v4TickItem keccak256 owner.1 owner.2

/-- One wave that does not look at what is missing (`enrich_v4_ticks_once`). -/
def enrichV4TicksOnce (rpc : BitmapRpc) (arena : StateArena) (targets : List (PoolIndex × PoolId))
    (wordRange : ℤ) : StateArena × TickEnrichment :=
  let bitmapCalls := batch (v4Requests keccak256 arena wordRange targets)
  if bitmapCalls = [] then (arena, .default)
  else
    match rpc.words.run bitmapCalls with
    | .error _ => (arena, { TickEnrichment.default with rpcFailed := true })
    | .ok bitmaps =>
        let owners := readOnce maxClTickInfoReads
          (v4Windows keccak256 order arena wordRange targets bitmaps) []
        if owners = [] then (arena, { TickEnrichment.default with emptyPools := targets.length })
        else
          match rpc.ticks.run (tickItems keccak256 owners) with
          | .error _ => (arena, { TickEnrichment.default with rpcFailed := true })
          | .ok states =>
              let (arena, loaded) := storeGroups .v4 (groupTicks (v4TickEntries owners states)) arena
              (arena, { TickEnrichment.default with loaded := loaded })

/-- What the first wave leaves. -/
structure V4Narrow where
  arena : StateArena
  updated : ℕ
  emptyPools : ℕ
  incompletePools : List PoolIndex
  capped : Bool

/-- The first wave; it keeps track of the pools it could not read in full. -/
def v4Narrow (rpc : BitmapRpc) (arena : StateArena) (targets : List (PoolIndex × PoolId))
    (wordRange : ℤ) : Except TickEnrichment V4Narrow :=
  let bitmapCalls := batch (v4Requests keccak256 arena wordRange targets)
  if bitmapCalls = [] then .error .default
  else
    match rpc.words.run bitmapCalls with
    | .error _ => .error { TickEnrichment.default with rpcFailed := true }
    | .ok bitmaps =>
        let (owners, turns) := readTurns maxClTickInfoReads
          (v4Windows keccak256 order arena wordRange targets bitmaps) []
        let incompletePools := ((turns.filter fun turn => turn.2 ≠ .done true).map fun turn => turn.1.1).dedup
        let capped := turns.any fun turn => turn.2.isCapped
        if owners = [] then .ok ⟨arena, 0, targets.length, incompletePools, capped⟩
        else
          match rpc.ticks.run (tickItems keccak256 owners) with
          | .error _ => .error { TickEnrichment.default with rpcFailed := true }
          | .ok states =>
              let (arena, updated) := storeGroups .v4 (groupTicks (v4TickEntries owners states)) arena
              .ok ⟨arena, updated, (stillTicklessV4 arena targets).length, incompletePools, capped⟩

/-- The pools of the second wave. -/
def v4WideTargets (arena : StateArena) (targets : List (PoolIndex × PoolId)) : List (PoolIndex × PoolId) :=
  (order.byLiquidity (fun target => ((clPool .v4 arena target.1).map fun s => s.liquidity).getD 0)
    (stillTicklessV4 arena targets)).take maxWideTickPools

/-- `enrich_v4_ticks`. -/
def enrichV4Ticks (narrowRpc wideRpc : BitmapRpc) (arena : StateArena)
    (targets : List (PoolIndex × PoolId)) (wordRange : ℤ) (allowWiden : Bool) : Hydration PoolId :=
  match v4Narrow keccak256 order narrowRpc arena targets wordRange with
  | .error report => ⟨arena, report, [], .none⟩
  | .ok narrow =>
      let wideTargets :=
        if narrow.updated < targets.length ∧ allowWiden = true ∧ wordRange < 48 then
          v4WideTargets order narrow.arena targets
        else []
      let (arena, wide) := enrichV4TicksOnce keccak256 order wideRpc narrow.arena
        wideTargets (wideRange wordRange)
      let stillTickless := stillTicklessV4 arena targets
      let incompleteCount := narrow.incompletePools.length
      let needsUrlFallback :=
        !stillTickless.isEmpty && (decide (0 < incompleteCount) || narrow.capped || wide.rpcFailed)
      { arena := arena
        report := { TickEnrichment.default with
          loaded := narrow.updated + wide.loaded
          rpcFailed := needsUrlFallback
          emptyPools := narrow.emptyPools
          incompletePools := incompleteCount }
        cleared := (targets.filter fun target =>
          (clPool .v4 arena target.1).any fun s => !s.ticks.isEmpty).map Prod.snd
        cooldown := armCooldown (stillTickless.map Prod.snd) needsUrlFallback (decide (0 < incompleteCount))
          allowWiden fun poolId => decide (48 ≤ wordRange) || decide (poolId ∈ wideTargets.map Prod.snd) }

end Pass

/-! ## Slots are the storage layout -/

/-- An integer as a 32-byte word of the contract ABI. -/
def abiInt (x : ℤ) : List Byte := toBe 32 (BitVec.ofInt 256 x).toNat

/-- The sign in front of the low bytes of an integer makes its 32-byte word. -/
lemma abiInt_eq {x : ℤ} {k : ℕ} (hk : k ≤ 32) (hlow : -(256 ^ k : ℕ) ≤ x) (hhigh : x < (256 ^ k : ℕ)) :
    abiInt x = List.replicate (32 - k) (if x < 0 then 0xff else 0) ++
      toBe k (x % (256 ^ k : ℕ)).toNat := by
  have hnat : (BitVec.ofInt 256 x).toNat = (x % (2 ^ 256 : ℕ)).toNat := BitVec.toNat_ofInt ..
  have hpow : 256 ^ (32 - k) * 256 ^ k = 2 ^ 256 := by
    rw [← pow_add, Nat.sub_add_cancel hk]
    norm_num
  have hsplit : abiInt x = toBe (32 - k + k) (BitVec.ofInt 256 x).toNat := by
    rw [Nat.sub_add_cancel hk]
    rfl
  have hlen : 0 < 256 ^ k := Nat.pow_pos (by omega)
  have hfill : 0 < 256 ^ (32 - k) := Nat.pow_pos (by omega)
  rw [hsplit, toBe_add, hnat, ← toBe_mod k, ← hpow]
  generalize hP : 256 ^ k = P at *
  generalize hQ : 256 ^ (32 - k) = Q at *
  have hle : P ≤ Q * P := Nat.le_mul_of_pos_left P hfill
  have hrem : ((x % ((Q * P : ℕ) : ℤ)).toNat % P : ℕ) = (x % (P : ℤ)).toNat := by
    have hnonneg : 0 ≤ x % ((Q * P : ℕ) : ℤ) := Int.emod_nonneg _ (by omega)
    have hdvd : (P : ℤ) ∣ ((Q * P : ℕ) : ℤ) := ⟨Q, by push_cast; ring⟩
    have hmod : x % ((Q * P : ℕ) : ℤ) % (P : ℤ) = x % (P : ℤ) := Int.emod_emod_of_dvd x hdvd
    rcases Int.eq_ofNat_of_zero_le hnonneg with ⟨n, hn⟩
    rw [hn] at hmod ⊢
    rw [← hmod, Int.toNat_natCast, ← Int.natCast_mod, Int.toNat_natCast]
  rw [hrem]
  congr 1
  rcases lt_or_ge x 0 with hneg | hpos
  · have hval : x % ((Q * P : ℕ) : ℤ) = (Q * P : ℕ) + x := by
      rw [← Int.add_emod_left, Int.emod_eq_of_lt (by omega) (by omega)]
    have hdiv : ((Q * P : ℕ) + x).toNat / P = Q - 1 := by
      refine Nat.div_eq_of_lt_le ?_ ?_
      · rw [Nat.sub_mul]
        omega
      · rw [Nat.sub_add_cancel hfill]
        omega
    rw [hval, hdiv, if_pos hneg, ← hQ, toBe_ones]
  · have hval : x % ((Q * P : ℕ) : ℤ) = x := Int.emod_eq_of_lt hpos (by omega)
    have hdiv : x.toNat / P = 0 := Nat.div_eq_of_lt (by omega)
    rw [hval, hdiv, if_neg (by omega), toBe_zero]

lemma signExtendI16_ofInt {x : ℤ} (hlow : -2 ^ 15 ≤ x) (hhigh : x < 2 ^ 15) :
    signExtendI16 (BitVec.ofInt 16 x) = abiInt x := by
  have hnat : (BitVec.ofInt 16 x).toNat = (x % ((256 ^ 2 : ℕ) : ℤ)).toNat := BitVec.toNat_ofInt ..
  have hmsb : (BitVec.ofInt 16 x).msb = decide (x < 0) := by
    rw [BitVec.msb_eq_toInt, BitVec.toInt_ofInt, Int.bmod_eq_of_le (by omega) (by omega)]
  rw [abiInt_eq (k := 2) (by omega) (by norm_num; omega) (by norm_num; omega), signExtendI16, hmsb, hnat]
  simp

lemma signExtendI24_ofInt {x : ℤ} (hlow : -2 ^ 23 ≤ x) (hhigh : x < 2 ^ 23) :
    signExtendI24 (BitVec.ofInt 32 x) = abiInt x := by
  have hnat : (BitVec.ofInt 32 x).toNat = (x % ((256 ^ 4 : ℕ) : ℤ)).toNat := BitVec.toNat_ofInt ..
  have hmsb : (BitVec.ofInt 32 x).msb = decide (x < 0) := by
    rw [BitVec.msb_eq_toInt, BitVec.toInt_ofInt, Int.bmod_eq_of_le (by omega) (by omega)]
  have hlast : (toBe 4 (BitVec.ofInt 32 x).toNat).drop 1 =
      toBe 3 (x % ((256 ^ 3 : ℕ) : ℤ)).toNat := by
    have hlow : (toBe 4 (BitVec.ofInt 32 x).toNat).drop 1 = toBe 3 (BitVec.ofInt 32 x).toNat := rfl
    rw [hlow, ← toBe_mod, hnat]
    congr 1
    omega
  rw [abiInt_eq (k := 3) (by omega) (by norm_num; omega) (by norm_num; omega), signExtendI24, hmsb, hlast]
  simp

/-- The low half of a packed tick. -/
def grossOf (raw : U256) : ℕ := raw.toNat % 2 ^ 128

/-- The high half, with its sign. -/
def netOf (raw : U256) : ℤ := Int.bmod (raw.toNat / 2 ^ 128 : ℕ) (2 ^ 128)

lemma decodeV4TickLiquidity_eq (raw : U256) : decodeV4TickLiquidity raw = (grossOf raw, netOf raw) := by
  have hhigh : ofBe ((toBe 32 raw.toNat).take 16) = raw.toNat / 2 ^ 128 := by
    have hsplit : toBe 32 raw.toNat = toBe 16 (raw.toNat / 256 ^ 16) ++ toBe 16 raw.toNat := toBe_add 16 16 _
    have hbound : raw.toNat / 256 ^ 16 < 256 ^ 16 := by
      have := raw.isLt
      omega
    rw [hsplit, List.take_append_of_le_length (by simp), List.take_of_length_le (by simp),
      ofBe_toBe hbound]
    norm_num
  rw [decodeV4TickLiquidity, hhigh, BitVec.toNat_and, BitVec.toNat_ofNat,
    Nat.mod_eq_of_lt (by norm_num : 2 ^ 128 - 1 < 2 ^ 256), Nat.and_two_pow_sub_one_eq_mod]
  rw [← BitVec.ofInt_natCast, BitVec.toInt_ofInt]
  rfl

/-- A stored word is read back. -/
lemma decodeAbiWord_toBe (raw : U256) : decodeAbiWord (toBe 32 raw.toNat) = some raw := by
  rw [decodeAbiWord, length_toBe, if_neg (by omega), Nat.sub_self, List.drop_zero,
    ofBe_toBe (by have := raw.isLt; omega)]
  simp

/-! ## Windows -/

section Windows

variable {keccak256 : List Byte → BitVec 256} {order : TieOrder}
  {arena : StateArena} {wordRange : ℤ} {targets : List (PoolIndex × PoolId)}
  {bitmaps : List (Option (List Byte))} {target : PoolIndex × PoolId}
  {window : PoolWindow (PoolIndex × PoolId)}

/-- The window of a target with the answers to its words. -/
structure WindowOf (keccak256 : List Byte → BitVec 256)
    (items : List MulticallItem) (bitmaps : List (Option (List Byte))) (wordRange : ℤ)
    (target : PoolIndex × PoolId) (s : V4PoolState) (window : PoolWindow (PoolIndex × PoolId)) : Prop where
  owner : window.owner = target
  spacing : window.spacing = max s.tickSpacing 1
  wordMin : window.wordMin = clTickBitmapCenterWord s.tick window.spacing - wordRange
  wordCount : window.wordCount = (2 * wordRange + 1).toNat
  words : ∀ offset < window.wordCount, ∃ k : ℕ,
    items[k]? = some (v4BitmapItem keccak256 target.2 (window.wordMin + offset)) ∧
      window.words offset = (bitmaps[k]?.join).bind decodeAbiWord

lemma windowOf_covers {span : Span V4SpanInfo} {request : V4SpanInfo × List MulticallItem}
    {items : List MulticallItem} (hspan : span.Covers items request)
    (hrequest : v4Request keccak256 arena wordRange target = some request) :
    ∃ s, clPool .v4 arena target.1 = some s ∧
      WindowOf keccak256 items bitmaps wordRange target s (v4Window bitmaps span) := by
  rcases hspan with ⟨hinfo, hstop, hitems⟩
  rw [v4Request, Option.map_eq_some_iff] at hrequest
  rcases hrequest with ⟨s, hs, rfl⟩
  have hcount : (v4Window bitmaps span).wordCount = (2 * wordRange + 1).toNat := by
    rw [v4Window, hstop]
    simp [windowWords_eq]
  refine ⟨s, hs, ?_, ?_, ?_, hcount, fun offset hoffset => ⟨span.start + offset, ?_, rfl⟩⟩
  · rw [v4Window, hinfo]
  · rw [v4Window, hinfo]
  · rw [v4Window, hinfo]
  · rw [hcount] at hoffset
    rw [hitems offset (by simpa [windowWords_eq] using hoffset), v4Window, hinfo]
    simp [windowWords_eq, hoffset]

lemma mem_v4Windows (h : window ∈ v4Windows keccak256 order arena wordRange targets bitmaps) :
    ∃ target ∈ targets, ∃ s, clPool .v4 arena target.1 = some s ∧
      WindowOf keccak256 (batch (v4Requests keccak256 arena wordRange targets))
        bitmaps wordRange target s window := by
  rcases List.mem_map.mp h with ⟨span, hspan, rfl⟩
  have hin := (perm_byLiquidity order _ _).mem_iff.mp hspan
  rcases (exists_of_forall₂ (covers_batch _)).1 span hin with ⟨request, hrequest, hcovers⟩
  rcases List.mem_filterMap.mp hrequest with ⟨target, htarget, hmade⟩
  rcases windowOf_covers hcovers hmade with ⟨s, hs, hwindow⟩
  exact ⟨target, htarget, s, hs, hwindow⟩

variable (keccak256 order wordRange) in
lemma exists_v4Window {s : V4PoolState} (htarget : target ∈ targets) (hs : clPool .v4 arena target.1 = some s)
    (bitmaps : List (Option (List Byte))) :
    ∃ window ∈ v4Windows keccak256 order arena wordRange targets bitmaps,
      WindowOf keccak256 (batch (v4Requests keccak256 arena wordRange targets))
        bitmaps wordRange target s window := by
  have hmade : v4Request keccak256 arena wordRange target ≠ none := by
    simp [v4Request, hs]
  rcases Option.ne_none_iff_exists'.mp hmade with ⟨request, hrequest⟩
  rcases (exists_of_forall₂ (covers_batch
    (v4Requests keccak256 arena wordRange targets))).2 request
    (List.mem_filterMap.mpr ⟨target, htarget, hrequest⟩) with ⟨span, hspan, hcovers⟩
  rcases windowOf_covers hcovers hrequest with ⟨s', hs', hwindow⟩
  rw [hs, Option.some_inj] at hs'
  subst hs'
  exact ⟨_, List.mem_map_of_mem ((perm_byLiquidity order _ _).mem_iff.mpr hspan), hwindow⟩

variable (keccak256 order arena wordRange targets) in
/-- One window for every target that holds a V4 pool. -/
lemma owners_v4Windows (bitmaps : List (Option (List Byte))) :
    ((v4Windows keccak256 order arena wordRange targets bitmaps).map
        PoolWindow.owner).Perm (targets.filter fun target => (clPool .v4 arena target.1).isSome) := by
  have howner : ∀ spans : List (Span V4SpanInfo), (spans.map (v4Window bitmaps)).map PoolWindow.owner =
      (spans.map Span.info).map fun info => (info.idx, info.poolId) := by
    intro spans
    rw [List.map_map, List.map_map]
    rfl
  rw [v4Windows, howner]
  refine (((perm_byLiquidity order _ _).map _).map _).trans (List.Perm.of_eq ?_)
  rw [map_info_layOut, v4Requests, List.map_map, List.map_filterMap]
  induction targets with
  | nil => rfl
  | cons target targets ih =>
      rw [List.filterMap_cons, List.filter_cons, ih]
      cases hs : clPool .v4 arena target.1 with
      | none => simp [v4Request, hs]
      | some s => simp [v4Request, hs]

end Windows

/-! ## Entries -/

section Entries

variable {keccak256 : List Byte → BitVec 256} {order : TieOrder}
  {arena : StateArena} {wordRange : ℤ} {targets : List (PoolIndex × PoolId)}
  {bitmaps states : List (Option (List Byte))} {owners : List ((PoolIndex × PoolId) × ℤ)}

lemma key_of_v4TickEntry {owner : (PoolIndex × PoolId) × ℤ} {bytes : Option (List Byte)}
    {entry : PoolIndex × V3Tick} (h : v4TickEntry owner bytes = some entry) : entry.1 = owner.1.1 := by
  rw [v4TickEntry, Option.bind_eq_some_iff] at h
  rcases h with ⟨raw, -, hraw⟩
  rw [Option.ite_none_right_eq_some] at hraw
  rcases hraw with ⟨-, hraw⟩
  cases hraw
  rfl

lemma owner_mem_targets {budget : ℕ} {owner : (PoolIndex × PoolId) × ℤ}
    (h : owner ∈ (readTurns budget
      (v4Windows keccak256 order arena wordRange targets bitmaps) []).1) :
    owner.1 ∈ targets := by
  rw [calls_readTurns] at h
  rcases List.mem_flatMap.mp (List.mem_of_mem_take h) with ⟨window, hwindow, hin⟩
  rcases List.mem_map.mp hin with ⟨t, -, rfl⟩
  rcases mem_v4Windows hwindow with ⟨target, htarget, s, -, hof⟩
  rw [hof.owner]
  exact htarget

/-- Entries are made for targets only. -/
lemma key_mem_targets {i : PoolIndex} (howners : ∀ owner ∈ owners, owner.1 ∈ targets)
    (h : i ∈ (groupTicks (v4TickEntries owners states)).map Prod.fst) : i ∈ targets.map Prod.fst := by
  rw [keys_groupTicks, List.mem_dedup] at h
  rcases List.mem_map.mp h with ⟨entry, hentry, rfl⟩
  rcases List.mem_filterMap.mp hentry with ⟨⟨owner, bytes⟩, hpair, hmade⟩
  rw [key_of_v4TickEntry hmade]
  exact List.mem_map_of_mem (howners owner (List.of_mem_zip hpair).1)

end Entries

/-! ## On chain -/

section Chain

variable (keccak256 : List Byte → BitVec 256) (storage : BitVec 256 → U256)

/-- A word of a pool's tick bitmap, a mapping from 16-bit integers. -/
def chainBitmap (poolId : PoolId) (word : ℤ) : U256 :=
  storage (mappingSlot keccak256 (abiInt word) (computeV4PoolFieldSlot keccak256 poolId v4TickBitmapOffset))

/-- The packed record of a tick, gross liquidity in the low half and net liquidity in the high one. -/
def chainTick (poolId : PoolId) (tick : ℤ) : U256 :=
  storage (mappingSlot keccak256 (abiInt tick) (computeV4PoolFieldSlot keccak256 poolId v4TicksOffset))

/-- The word of the current tick. -/
def centreWord (s : V4PoolState) : ℤ := s.tick / max s.tickSpacing 1 / 256

/-- A tick whose bit is set in a word of the window. -/
def SetInWindow (poolId : PoolId) (s : V4PoolState) (range tick : ℤ) : Prop :=
  ∃ (word : ℤ) (bit : ℕ), centreWord s - range ≤ word ∧ word ≤ centreWord s + range ∧ bit < 256 ∧
    (chainBitmap keccak256 storage poolId word).getLsbD bit = true ∧
    tick = (word * 256 + bit) * max s.tickSpacing 1

/-- A tick list is what the chain has in a window: the ticks in the price range with liquidity, ascending. -/
structure HydratedExactly (poolId : PoolId) (s : V4PoolState) (range : ℤ) (ticks : List V3Tick) : Prop where
  ascending : ticks.Pairwise fun a b => a.tick < b.tick
  mem_iff : ∀ v, v ∈ ticks ↔
    (SetInWindow keccak256 storage poolId s range v.tick ∧ minTick ≤ v.tick ∧ v.tick ≤ maxTick) ∧
      0 < grossOf (chainTick keccak256 storage poolId v.tick) ∧
      v.liquidityGross = grossOf (chainTick keccak256 storage poolId v.tick) ∧
      v.liquidityNet = netOf (chainTick keccak256 storage poolId v.tick)

/-- The ticks of the window, word by word. -/
def chainWindow (poolId : PoolId) (s : V4PoolState) (range : ℤ) : List ℤ :=
  (windowWords (centreWord s) range).flatMap fun word =>
    wordTicks word (max s.tickSpacing 1) (chainBitmap keccak256 storage poolId word)

/-- How many ticks a target has in its window. -/
def windowSize (arena : StateArena) (range : ℤ) (target : PoolIndex × PoolId) : ℕ :=
  ((clPool .v4 arena target.1).map fun s => (chainWindow keccak256 storage target.2 s range).length).getD 0

/-- The windows of the targets have no more ticks than may be read. -/
def FitsBudget (arena : StateArena) (targets : List (PoolIndex × PoolId)) (range : ℤ) : Prop :=
  (targets.map (windowSize keccak256 storage arena range)).sum ≤ maxClTickInfoReads

/-- The node answers the reads of slots with what is stored. -/
def ReturnsStored (rpc : Multicall) : Prop :=
  ∃ answer : MulticallItem → List Byte,
    (∀ slot, answer (extsloadItem slot) = toBe 32 (storage slot).toNat) ∧
      ∀ items, (∀ item ∈ items, ∃ slot, item = extsloadItem slot) →
        rpc.run items = .ok (items.map fun item => some (answer item))

end Chain

section Exact

variable {keccak256 : List Byte → BitVec 256} {storage : BitVec 256 → U256}
  {order : TieOrder} {arena : StateArena} {wordRange : ℤ} {targets : List (PoolIndex × PoolId)}
  {target : PoolIndex × PoolId} {s : V4PoolState} {window : PoolWindow (PoolIndex × PoolId)}
  {items : List MulticallItem} {answer : MulticallItem → List Byte}

lemma centreWord_eq (s : V4PoolState) :
    clTickBitmapCenterWord s.tick (max s.tickSpacing 1) = centreWord s := by
  rw [clTickBitmapCenterWord, Int.shiftRight_eq_div_pow, compressClTick, max_eq_left (le_max_right ..),
    centreWord]
  rfl

/-- An answered word of the window is the one on chain, or it has no ticks. -/
lemma block_eq (hwindow : WindowOf keccak256 items (items.map fun item => some (answer item))
      wordRange target s window)
    (hanswer : ∀ slot, answer (extsloadItem slot) = toBe 32 (storage slot).toNat)
    {offset : ℕ} (hoffset : offset < window.wordCount) :
    window.block offset = wordTicks (centreWord s - wordRange + offset) (max s.tickSpacing 1)
      (chainBitmap keccak256 storage target.2 (centreWord s - wordRange + offset)) := by
  have hmin : window.wordMin = centreWord s - wordRange := by
    rw [hwindow.wordMin, hwindow.spacing, centreWord_eq]
  rcases hwindow.words offset hoffset with ⟨k, hitem, hword⟩
  rw [List.getElem?_map, hitem, Option.map_some, Option.join_some, Option.bind_some, v4BitmapItem, hanswer,
    decodeAbiWord_toBe, hmin] at hword
  rw [PoolWindow.block, hword, hwindow.spacing, hmin]
  dsimp only
  by_cases hrange : -2 ^ 15 ≤ centreWord s - wordRange + offset ∧ centreWord s - wordRange + offset < 2 ^ 15
  · rw [chainBitmap, computeV4TickBitmapSlot, signExtendI16_ofInt hrange.1 hrange.2]
  · rw [wordTicks_eq_nil hrange, wordTicks_eq_nil hrange]

/-- The ticks visited are those of the window on chain. -/
lemma ticks_perm (hwindow : WindowOf keccak256 items
      (items.map fun item => some (answer item)) wordRange target s window)
    (hanswer : ∀ slot, answer (extsloadItem slot) = toBe 32 (storage slot).toNat) :
    window.ticks.Perm (chainWindow keccak256 storage target.2 s wordRange) := by
  have hsame : (List.range window.wordCount).flatMap window.block =
      chainWindow keccak256 storage target.2 s wordRange := by
    rw [chainWindow, windowWords_eq, List.flatMap_map, ← hwindow.wordCount]
    refine List.flatMap_congr fun offset hoffset => ?_
    exact block_eq hwindow hanswer (List.mem_range.mp hoffset)
  rw [← hsame]
  exact (CenterOut.perm_centerOut window.wordCount).flatMap_right window.block

lemma mem_chainWindow {range t : ℤ} {poolId : PoolId} :
    t ∈ chainWindow keccak256 storage poolId s range ↔
      SetInWindow keccak256 storage poolId s range t ∧ minTick ≤ t ∧ t ≤ maxTick := by
  rw [chainWindow, List.mem_flatMap]
  constructor
  · rintro ⟨word, hword, ht⟩
    rw [windowWords_eq] at hword
    rcases List.mem_map.mp hword with ⟨k, hk, rfl⟩
    rcases mem_wordTicks.mp ht with ⟨bit, hbit, hset, htick, hlow, hhigh⟩
    rw [List.mem_range] at hk
    rw [max_eq_left (le_max_right ..)] at htick
    exact ⟨⟨_, bit, by omega, by omega, hbit, hset, htick⟩, hlow, hhigh⟩
  · rintro ⟨⟨word, bit, hlow, hhigh, hbit, hset, htick⟩, hin⟩
    refine ⟨word, ?_, ?_⟩
    · rw [windowWords_eq]
      refine List.mem_map.mpr ⟨(word - (centreWord s - range)).toNat, ?_, by omega⟩
      rw [List.mem_range]
      omega
    · rw [mem_wordTicks, max_eq_left (le_max_right ..)]
      exact ⟨bit, hbit, hset, htick, hin⟩

/-- No tick of a window is listed twice. -/
lemma nodup_chainWindow (poolId : PoolId) (s : V4PoolState) (range : ℤ) :
    (chainWindow keccak256 storage poolId s range).Nodup := by
  rw [chainWindow, List.nodup_flatMap]
  refine ⟨fun word _ => (sorted_wordTicks _ _ _).imp fun {a b} h => h.ne, ?_⟩
  rw [windowWords_eq, List.pairwise_map]
  refine List.pairwise_lt_range.imp fun {i j} hij => ?_
  intro t ht ht'
  rcases mem_wordTicks.mp ht with ⟨bit, hbit, -, heq, -⟩
  rcases mem_wordTicks.mp ht' with ⟨bit', hbit', -, heq', -⟩
  have hlt := @tick_lt_tick (centreWord s - range + i) (max s.tickSpacing 1) bit bit'
    (centreWord s - range + j) (by omega)
  omega

/-- What is stored for a tick with liquidity. -/
def chainEntry (keccak256 : List Byte → BitVec 256) (storage : BitVec 256 → U256) (poolId : PoolId)
    (tick : ℤ) : Option V3Tick :=
  let raw := chainTick keccak256 storage poolId tick
  if 0 < grossOf raw then some ⟨tick, grossOf raw, netOf raw⟩ else none

lemma v4TickEntry_answer {t : ℤ} (ht : minTick ≤ t ∧ t ≤ maxTick)
    (hanswer : ∀ slot, answer (extsloadItem slot) = toBe 32 (storage slot).toNat) :
    v4TickEntry (target, t) (some (answer (v4TickItem keccak256 target t))) =
      (chainEntry keccak256 storage target.2 t).map fun v => (target.1, v) := by
  simp only [minTick, maxTick] at ht
  rw [v4TickEntry, v4TickItem, hanswer, Option.bind_some, decodeAbiWord_toBe, Option.bind_some,
    decodeV4TickLiquidity_eq, computeV4TickInfoSlot, signExtendI24_ofInt (by omega) (by omega), chainEntry,
    chainTick]
  dsimp only
  generalize storage _ = raw
  split_ifs <;> rfl

/-- The ticks of a window with liquidity, sorted, are what the chain has. -/
lemma hydratedExactly_of_perm {ticks : List ℤ} {poolId : PoolId} {range : ℤ}
    (h : ticks.Perm (chainWindow keccak256 storage poolId s range)) :
    HydratedExactly keccak256 storage poolId s range
      (finalizeClTicks (ticks.filterMap (chainEntry keccak256 storage poolId))) := by
  have hentry : ∀ {t v}, chainEntry keccak256 storage poolId t = some v ↔
      t = v.tick ∧ 0 < grossOf (chainTick keccak256 storage poolId v.tick) ∧
        v.liquidityGross = grossOf (chainTick keccak256 storage poolId v.tick) ∧
        v.liquidityNet = netOf (chainTick keccak256 storage poolId v.tick) := by
    intro t v
    rw [chainEntry, Option.ite_none_right_eq_some]
    constructor
    · rintro ⟨hpos, hv⟩
      rw [Option.some_inj] at hv
      rw [← hv]
      dsimp only
      exact ⟨rfl, hpos, rfl, rfl⟩
    · rintro ⟨rfl, hpos, hgross, hnet⟩
      rcases v with ⟨tick, gross, net⟩
      dsimp only at hgross hnet
      rw [hgross, hnet]
      exact ⟨hpos, rfl⟩
  have hnodup : ((ticks.filterMap (chainEntry keccak256 storage poolId)).map V3Tick.tick).Nodup := by
    have hall : ticks.Nodup := h.nodup_iff.mpr (nodup_chainWindow poolId s range)
    rw [List.Nodup, List.pairwise_map, List.pairwise_filterMap]
    refine hall.imp fun {a b} hne v hv w hw => ?_
    rw [← (hentry.mp hv).1, ← (hentry.mp hw).1]
    exact hne
  rcases finalizeClTicks_of_nodup hnodup with ⟨hsorted, hmem⟩
  refine ⟨hsorted, fun v => ?_⟩
  rw [hmem, List.mem_filterMap]
  constructor
  · rintro ⟨t, ht, hv⟩
    rcases hentry.mp hv with ⟨rfl, hrest⟩
    exact ⟨mem_chainWindow.mp (h.mem_iff.mp ht), hrest⟩
  · rintro ⟨hin, hrest⟩
    exact ⟨v.tick, h.mem_iff.mpr (mem_chainWindow.mpr hin), hentry.mpr ⟨rfl, hrest⟩⟩

lemma zip_map_self {α β γ : Type} (f : α → β) (g : α → β → Option γ) (xs : List α) :
    ((xs.zip (xs.map f)).filterMap fun (x, y) => g x y) = xs.filterMap fun x => g x (f x) := by
  induction xs with
  | nil => rfl
  | cons x xs ih => simp [List.filterMap_cons, ih]

/-- The entries of a pool are the ticks of its window with liquidity. -/
lemma entriesOf_wanted {windows : List (PoolWindow (PoolIndex × PoolId))}
    (hanswer : ∀ slot, answer (extsloadItem slot) = toBe 32 (storage slot).toNat)
    (hnodup : (windows.map fun window => window.owner.1).Nodup) (hmem : window ∈ windows)
    (howner : window.owner = target)
    (hticks : window.ticks.Perm (chainWindow keccak256 storage target.2 s wordRange)) :
    entriesOf (v4TickEntries (wantedReads windows) ((wantedReads windows).map fun owner =>
        some (answer (v4TickItem keccak256 owner.1 owner.2)))) target.1 =
      window.ticks.filterMap (chainEntry keccak256 storage target.2) := by
  obtain ⟨pre, post, rfl⟩ := List.append_of_mem hmem
  rw [List.map_append, List.map_cons, List.nodup_append, List.nodup_cons] at hnodup
  rcases hnodup with ⟨-, ⟨hpost, -⟩, hpre⟩
  have hother : ∀ others : List (PoolWindow (PoolIndex × PoolId)),
      (∀ w ∈ others, w.owner.1 ≠ target.1) →
      (wantedReads others).filterMap (fun owner => (v4TickEntry owner (some (answer
        (v4TickItem keccak256 owner.1 owner.2)))).bind fun entry =>
          if entry.1 = target.1 then some entry.2 else none) = [] := by
    intro others hne
    refine List.filterMap_eq_nil_iff.mpr fun owner hin => ?_
    rcases List.mem_flatMap.mp hin with ⟨w, hw, hin⟩
    rcases List.mem_map.mp hin with ⟨t, -, rfl⟩
    rw [Option.bind_eq_none_iff]
    intro entry hentry
    rw [key_of_v4TickEntry hentry]
    exact if_neg (hne w hw)
  have hsplit : wantedReads (pre ++ window :: post) = wantedReads pre ++
      ((window.ticks.map fun t => (window.owner, t)) ++ wantedReads post) := by
    simp [wantedReads]
  rw [v4TickEntries, zip_map_self, entriesOf, List.filterMap_filterMap, hsplit, List.filterMap_append,
    List.filterMap_append]
  rw [hother pre fun w hw => ?_, hother post fun w hw => ?_, List.append_nil, List.nil_append,
    List.filterMap_map, howner]
  · refine List.filterMap_congr fun t ht => ?_
    have hin := (mem_chainWindow.mp (hticks.mem_iff.mp ht)).2
    rw [Function.comp_apply, v4TickEntry_answer hin hanswer]
    cases chainEntry keccak256 storage target.2 t with
    | none => rfl
    | some v => simp
  · rintro heq
    refine hpost ?_
    rw [howner, ← heq]
    exact List.mem_map_of_mem hw
  · rw [← howner]
    exact hpre _ (List.mem_map_of_mem hw) _ List.mem_cons_self

/-- The answers to the words of the targets. -/
def storedWords (keccak256 : List Byte → BitVec 256)
    (answer : MulticallItem → List Byte) (arena : StateArena) (wordRange : ℤ)
    (targets : List (PoolIndex × PoolId)) : List (Option (List Byte)) :=
  (batch (v4Requests keccak256 arena wordRange targets)).map fun item => some (answer item)

lemma length_wanted_eq
    (hanswer : ∀ slot, answer (extsloadItem slot) = toBe 32 (storage slot).toNat) :
    (wantedReads (v4Windows keccak256 order arena wordRange targets
        (storedWords keccak256 answer arena wordRange targets))).length =
      (targets.map (windowSize keccak256 storage arena wordRange)).sum := by
  have hsize : ∀ window ∈ v4Windows keccak256 order arena wordRange targets
      (storedWords keccak256 answer arena wordRange targets),
      window.ticks.length = windowSize keccak256 storage arena wordRange window.owner := by
    intro window hmem
    rcases mem_v4Windows hmem with ⟨target, -, s, hs, hwindow⟩
    rw [windowSize, hwindow.owner, hs, (ticks_perm hwindow hanswer).length_eq]
    rfl
  have hsplit : ∀ others : List (PoolIndex × PoolId),
      ((others.filter fun target => (clPool .v4 arena target.1).isSome).map
          (windowSize keccak256 storage arena wordRange)).sum =
        (others.map (windowSize keccak256 storage arena wordRange)).sum := by
    intro others
    induction others with
    | nil => rfl
    | cons target others ih =>
        rw [List.filter_cons, List.map_cons, List.sum_cons, ← ih]
        cases hs : clPool .v4 arena target.1 with
        | none => simp [windowSize, hs]
        | some s => simp
  rw [length_wantedReads, List.length_flatMap, List.map_congr_left hsize, ← hsplit,
    ← ((owners_v4Windows _ _ _ _ _ _).map _).sum_eq, List.map_map]
  rfl

/-- The wave leaves a target with the ticks of its window on chain, or as it was if there are none. -/
lemma clPool_wave {answer' : MulticallItem → List Byte}
    (hanswer : ∀ slot, answer (extsloadItem slot) = toBe 32 (storage slot).toNat)
    (hanswer' : ∀ slot, answer' (extsloadItem slot) = toBe 32 (storage slot).toNat)
    (hnodup : (targets.map Prod.fst).Nodup)
    (hfits : FitsBudget keccak256 storage arena targets wordRange) (htarget : target ∈ targets)
    (hslot : HasSlot arena target.1) (hs : clPool .v4 arena target.1 = some s)
    {owners : List ((PoolIndex × PoolId) × ℤ)}
    (howners : owners = (readTurns maxClTickInfoReads (v4Windows keccak256 order arena
      wordRange targets (storedWords keccak256 answer arena wordRange targets)) []).1) :
    ∃ ticks, HydratedExactly keccak256 storage target.2 s wordRange ticks ∧
      clPool .v4 (storeGroups .v4 (groupTicks (v4TickEntries owners
          ((tickItems keccak256 owners).map fun item => some (answer' item)))) arena).1
          target.1 =
        some (if ticks = [] then s else { s with ticks := ticks }) := by
  have hroom : (wantedReads (v4Windows keccak256 order arena wordRange targets
      (storedWords keccak256 answer arena wordRange targets))).length ≤
        maxClTickInfoReads := by
    rw [length_wanted_eq hanswer]
    exact hfits
  rw [calls_readTurns, List.take_of_length_le hroom] at howners
  rcases exists_v4Window keccak256 order wordRange htarget hs (storedWords keccak256 answer arena wordRange targets)
    with ⟨window, hmem, hwindow⟩
  have hunique : ((v4Windows keccak256 order arena wordRange targets
      (storedWords keccak256 answer arena wordRange targets)).map
        fun window => window.owner.1).Nodup := by
    have hsub : ((targets.filter fun target => (clPool .v4 arena target.1).isSome).map Prod.fst).Nodup :=
      hnodup.sublist (List.filter_sublist.map _)
    have hperm := (owners_v4Windows keccak256 order arena wordRange targets
      (storedWords keccak256 answer arena wordRange targets)).map Prod.fst
    rw [List.map_map] at hperm
    exact hperm.nodup_iff.mpr hsub
  have hentries := entriesOf_wanted hanswer' hunique hmem hwindow.owner (ticks_perm hwindow hanswer)
  refine ⟨_, hydratedExactly_of_perm (ticks_perm hwindow hanswer), ?_⟩
  rw [howners, tickItems, List.map_map, clPool_storeGroups _ hslot]
  simp only [Function.comp_def]
  rw [hentries, hs]
  simp only [finalizeClTicks_eq_nil]
  split_ifs
  · rfl
  · rfl

/-- With no words in the window there is nothing to find. -/
lemma hydratedExactly_nil_of_batch (htarget : target ∈ targets) (hs : clPool .v4 arena target.1 = some s)
    (hnone : batch (v4Requests keccak256 arena wordRange targets) = []) :
    HydratedExactly keccak256 storage target.2 s wordRange [] := by
  have hcount : (2 * wordRange + 1).toNat = 0 := by
    rcases exists_v4Window keccak256 ⟨fun xs => xs, fun xs => List.Perm.refl xs⟩ wordRange htarget hs []
      with ⟨window, -, hwindow⟩
    by_contra hpos
    rcases hwindow.words 0 (by rw [hwindow.wordCount]; omega) with ⟨k, hk, -⟩
    rw [hnone] at hk
    cases hk
  refine ⟨List.Pairwise.nil, fun v => ?_⟩
  constructor
  · rintro ⟨⟩
  · rintro ⟨⟨⟨word, bit, hlow, hhigh, -⟩, -⟩, -⟩
    omega

lemma extsload_batch : ∀ item ∈ batch (v4Requests keccak256 arena wordRange targets),
    ∃ slot, item = extsloadItem slot := by
  intro item hitem
  rcases List.mem_flatMap.mp hitem with ⟨request, hrequest, hin⟩
  rcases List.mem_filterMap.mp hrequest with ⟨target, -, hmade⟩
  rw [v4Request, Option.map_eq_some_iff] at hmade
  rcases hmade with ⟨s, -, rfl⟩
  rcases List.mem_map.mp hin with ⟨word, -, rfl⟩
  exact ⟨_, rfl⟩

lemma extsload_tickItems (owners : List ((PoolIndex × PoolId) × ℤ)) :
    ∀ item ∈ tickItems keccak256 owners, ∃ slot, item = extsloadItem slot := by
  intro item hitem
  rcases List.mem_map.mp hitem with ⟨owner, -, rfl⟩
  exact ⟨_, rfl⟩

lemma v4TickEntries_nil (states : List (Option (List Byte))) : v4TickEntries [] states = [] := by
  rw [v4TickEntries, List.zip_nil_left, List.filterMap_nil]

variable (order) in
/-- The wave without flags. -/
lemma clPool_enrichV4TicksOnce {rpc : BitmapRpc} (hwords : ReturnsStored storage rpc.words)
    (hticks : ReturnsStored storage rpc.ticks) (hnodup : (targets.map Prod.fst).Nodup)
    (hfits : FitsBudget keccak256 storage arena targets wordRange) (htarget : target ∈ targets)
    (hslot : HasSlot arena target.1) (hs : clPool .v4 arena target.1 = some s) :
    HasSlot (enrichV4TicksOnce keccak256 order rpc arena targets wordRange).1 target.1 ∧
      ∃ ticks, HydratedExactly keccak256 storage target.2 s wordRange ticks ∧
        clPool .v4 (enrichV4TicksOnce keccak256 order rpc arena targets wordRange).1 target.1 =
          some (if ticks = [] then s else { s with ticks := ticks }) := by
  rcases hwords with ⟨answer, hanswer, hrun⟩
  rcases hticks with ⟨answer', hanswer', hrun'⟩
  rw [enrichV4TicksOnce]
  by_cases hnone : batch (v4Requests keccak256 arena wordRange targets) = []
  · rw [if_pos hnone]
    exact ⟨hslot, [], hydratedExactly_nil_of_batch htarget hs hnone, hs⟩
  · rw [if_neg hnone, hrun _ extsload_batch]
    dsimp only
    rw [readOnce_eq_readTurns]
    have hwave := @clPool_wave _ _ order _ _ _ _ _ _ answer' hanswer hanswer' hnodup hfits htarget hslot hs
      _ rfl
    rw [storedWords] at hwave
    split_ifs with howners
    · rw [howners, v4TickEntries_nil] at hwave
      exact ⟨hslot, hwave⟩
    · rw [hrun' _ (extsload_tickItems _)]
      exact ⟨(hasSlot_storeGroups _ _).mpr hslot, hwave⟩

/-- The first wave stores what the wave without flags does, and nothing if it is over at once. -/
lemma v4Narrow_eq {rpc : BitmapRpc} :
    match v4Narrow keccak256 order rpc arena targets wordRange with
    | .error _ => (enrichV4TicksOnce keccak256 order rpc arena targets wordRange).1 = arena
    | .ok narrow => narrow.arena = (enrichV4TicksOnce keccak256 order rpc arena targets wordRange).1 := by
  rw [v4Narrow, enrichV4TicksOnce]
  dsimp only
  split_ifs with hnone
  · rfl
  · cases rpc.words.run (batch (v4Requests keccak256 arena wordRange targets)) with
    | error e => rfl
    | ok bitmaps =>
        dsimp only
        rw [readOnce_eq_readTurns]
        split_ifs with howners
        · rfl
        · cases rpc.ticks.run (tickItems keccak256 (readTurns maxClTickInfoReads
              (v4Windows keccak256 order arena wordRange targets bitmaps) []).1) with
          | error e => rfl
          | ok states => rfl

/-- A wave touches no pool but its targets. -/
lemma clPool_enrichV4TicksOnce_of_not_mem {rpc : BitmapRpc} {i : PoolIndex} (h : i ∉ targets.map Prod.fst) :
    clPool .v4 (enrichV4TicksOnce keccak256 order rpc arena targets wordRange).1 i =
      clPool .v4 arena i := by
  rw [enrichV4TicksOnce]
  dsimp only
  split_ifs with hnone
  · rfl
  · cases rpc.words.run (batch (v4Requests keccak256 arena wordRange targets)) with
    | error e => rfl
    | ok bitmaps =>
        dsimp only
        split_ifs with howners
        · rfl
        · split
          · rfl
          · refine clPool_storeGroups_of_not_mem (fun hmem => h (key_mem_targets ?_ hmem)) arena
            intro owner howner
            rw [readOnce_eq_readTurns] at howner
            exact owner_mem_targets howner

lemma mem_wideTargets {target : PoolIndex × PoolId} (h : target ∈ v4WideTargets order arena targets) :
    target ∈ targets ∧ ∃ s, clPool .v4 arena target.1 = some s ∧ s.ticks = [] := by
  have hmem := (perm_byLiquidity order _ _).mem_iff.mp (List.mem_of_mem_take h)
  rcases List.mem_filter.mp hmem with ⟨htarget, hempty⟩
  rw [Option.any_eq_true] at hempty
  rcases hempty with ⟨s, hs, hnil⟩
  exact ⟨htarget, s, hs, List.isEmpty_iff.mp hnil⟩

lemma nodup_wideTargets (h : (targets.map Prod.fst).Nodup) :
    ((v4WideTargets order arena targets).map Prod.fst).Nodup := by
  have hstill : ((stillTicklessV4 arena targets).map Prod.fst).Nodup :=
    h.sublist (List.filter_sublist.map _)
  have hranked := ((perm_byLiquidity order (fun target : PoolIndex × PoolId =>
    ((clPool .v4 arena target.1).map fun s => s.liquidity).getD 0) (stillTicklessV4 arena targets)).map
      Prod.fst).nodup_iff.mpr hstill
  exact hranked.sublist ((List.take_sublist _ _).map _)

/-- If the node returns what is stored and the reads fit the budget, a target ends with the ticks of its window
on chain; a window without any leaves it as it was, or with the ticks of the wide window. -/
theorem v4_hydration_exact {narrowRpc wideRpc : BitmapRpc} {allowWiden : Bool}
    (hnarrowWords : ReturnsStored storage narrowRpc.words)
    (hnarrowTicks : ReturnsStored storage narrowRpc.ticks)
    (hwideWords : ReturnsStored storage wideRpc.words)
    (hwideTicks : ReturnsStored storage wideRpc.ticks)
    (hnodup : (targets.map Prod.fst).Nodup)
    (hfits : FitsBudget keccak256 storage arena targets wordRange)
    (hfitsWide : allowWiden = true → wordRange < 48 → ∀ narrow,
      v4Narrow keccak256 order narrowRpc arena targets wordRange = .ok narrow →
        FitsBudget keccak256 storage narrow.arena (v4WideTargets order narrow.arena targets)
          (wideRange wordRange))
    (htarget : target ∈ targets) (hslot : HasSlot arena target.1)
    (hs : clPool .v4 arena target.1 = some s) :
    ∃ ticks, clPool .v4 (enrichV4Ticks keccak256 order narrowRpc wideRpc arena targets
          wordRange allowWiden).arena target.1 = some { s with ticks := ticks } ∧
      (HydratedExactly keccak256 storage target.2 s wordRange ticks ∨
        HydratedExactly keccak256 storage target.2 s wordRange [] ∧
          (ticks = s.ticks ∨ HydratedExactly keccak256 storage target.2 s (wideRange wordRange) ticks)) := by
  rcases clPool_enrichV4TicksOnce order hnarrowWords hnarrowTicks hnodup hfits htarget hslot hs with
    ⟨hslot', ticks, hexact, hstate⟩
  have hfirst : ∃ kept, clPool .v4 (enrichV4TicksOnce keccak256 order narrowRpc arena targets wordRange).1
        target.1 = some { s with ticks := kept } ∧
      (HydratedExactly keccak256 storage target.2 s wordRange kept ∨
        HydratedExactly keccak256 storage target.2 s wordRange [] ∧
          (kept = s.ticks ∨ HydratedExactly keccak256 storage target.2 s (wideRange wordRange) kept)) := by
    by_cases hticks : ticks = []
    · subst hticks
      exact ⟨s.ticks, hstate, Or.inr ⟨hexact, Or.inl rfl⟩⟩
    · rw [if_neg hticks] at hstate
      exact ⟨ticks, hstate, Or.inl hexact⟩
  have hnarrow := @v4Narrow_eq keccak256 order arena wordRange targets narrowRpc
  rw [enrichV4Ticks]
  cases hrun : v4Narrow keccak256 order narrowRpc arena targets wordRange with
  | error report =>
      rw [hrun] at hnarrow
      rw [hnarrow] at hfirst
      exact hfirst
  | ok narrow =>
      rw [hrun] at hnarrow
      dsimp only at hnarrow ⊢
      rw [← hnarrow] at hslot' hstate hfirst
      by_cases hin : target.1 ∈ (if narrow.updated < targets.length ∧ allowWiden = true ∧ wordRange < 48 then
          v4WideTargets order narrow.arena targets else []).map Prod.fst
      · -- only pools without ticks are read again
        split_ifs at hin ⊢ with hwiden
        · rcases List.mem_map.mp hin with ⟨target', htarget', hsame⟩
          rcases mem_wideTargets htarget' with ⟨hmem', s', hs', hempty⟩
          have heq : target' = target := List.inj_on_of_nodup_map hnodup hmem' htarget hsame
          subst heq
          rw [hstate, Option.some_inj] at hs'
          have hticks : ticks = [] := by
            by_contra hne
            rw [if_neg hne] at hs'
            rw [← hs'] at hempty
            exact hne hempty
          subst hticks
          rcases clPool_enrichV4TicksOnce order hwideWords hwideTicks (nodup_wideTargets hnodup)
            (hfitsWide hwiden.2.1 hwiden.2.2 narrow hrun) htarget' hslot' hstate with
            ⟨-, ticks', hexact', hstate'⟩
          rw [hstate']
          by_cases hticks' : ticks' = []
          · rw [if_pos hticks']
            exact ⟨s.ticks, rfl, Or.inr ⟨hexact, Or.inl rfl⟩⟩
          · rw [if_neg hticks']
            exact ⟨ticks', rfl, Or.inr ⟨hexact, Or.inr hexact'⟩⟩
        · cases hin
      · rw [clPool_enrichV4TicksOnce_of_not_mem hin]
        exact hfirst

end Exact

section Example

/-- A node that answers every read out of the storage. -/
def storedRpc (storage : BitVec 256 → U256) : Multicall where
  run items := .ok (items.map fun item =>
    some (toBe 32 (storage (BitVec.ofNat 256 (ofBe (item.data.drop 4)))).toNat))
  length_run h := by
    cases h
    exact List.length_map _

lemma returnsStored_storedRpc (storage : BitVec 256 → U256) : ReturnsStored storage (storedRpc storage) := by
  refine ⟨fun item => toBe 32 (storage (BitVec.ofNat 256 (ofBe (item.data.drop 4)))).toNat, fun slot => ?_,
    fun items _ => rfl⟩
  have hdata : (extsloadItem slot).data.drop 4 = toBe 32 slot.toNat := rfl
  have hbound : slot.toNat < 256 ^ 32 := by
    have := slot.isLt
    omega
  dsimp only
  rw [hdata, ofBe_toBe hbound, BitVec.ofNat_toNat, BitVec.setWidth_eq]

/-- A pool just below a multiple of its spacing. -/
def belowZero : V4PoolState :=
  { sqrtPriceX96 := 79109415290437196372300000000#256, tick := -30, liquidity := 5, fee := 3000#256,
    tickSpacing := 60, ticks := [], unlocked := true, feeProtocol := 0, observationCardinality := 1 }

def belowZeroArena : StateArena where
  inner := { ArenaInner.empty with pools := [.new (.v4 belowZero)], poolAddresses := [1] }
  hotOverlay := []
  hotRevisions := []

/-- The digests of the slots that the pool's narrow window needs. -/
def belowZeroKeccak (bytes : List Byte) : BitVec 256 :=
  if bytes = toBe 32 1 ++ List.replicate 28 0 ++ toBe 4 6 then
    0x3e5fec24aa4dc4e5aee2e025e51e1392c72a2500577559fae9665c6d52bd6a31#256
  else if bytes.take 32 = abiInt (-1) then
    0xa9f531d32a7801e5fd7761efcdfabdd15b41ecb7a9d0fb9e79c7aa2304a844c8#256
  else 0x970774f66b885837c250c82cfc8558d370cff8df0cb3e4c2a216676518a1603e#256

/-- One bit in the bitmap, one tick with liquidity. -/
def belowZeroStorage (slot : BitVec 256) : U256 :=
  if slot = 0xa9f531d32a7801e5fd7761efcdfabdd15b41ecb7a9d0fb9e79c7aa2304a844c8#256 then
    BitVec.ofNat 256 (2 ^ 255)
  else if slot = 0x970774f66b885837c250c82cfc8558d370cff8df0cb3e4c2a216676518a1603e#256 then
    BitVec.ofNat 256 (5 * 2 ^ 128 + 5)
  else 0

/-- The narrow window of a pool at a negative tick. -/
theorem v4_hydration_exact_belowZero :
    ∃ ticks, clPool .v4 (enrichV4Ticks belowZeroKeccak ⟨fun xs => xs, fun xs => List.Perm.refl xs⟩
          ⟨storedRpc belowZeroStorage, storedRpc belowZeroStorage⟩
          ⟨storedRpc belowZeroStorage, storedRpc belowZeroStorage⟩ belowZeroArena [(0, 1)] 0 false).arena 0 =
        some { belowZero with ticks := ticks } ∧
      (HydratedExactly belowZeroKeccak belowZeroStorage 1 belowZero 0 ticks ∨
        HydratedExactly belowZeroKeccak belowZeroStorage 1 belowZero 0 [] ∧
          (ticks = belowZero.ticks ∨
            HydratedExactly belowZeroKeccak belowZeroStorage 1 belowZero (wideRange 0) ticks)) := by
  have hstored := returnsStored_storedRpc belowZeroStorage
  have hfits : FitsBudget belowZeroKeccak belowZeroStorage belowZeroArena [(0, 1)] 0 := by
    rw [FitsBudget]
    decide +kernel
  refine @v4_hydration_exact belowZeroKeccak belowZeroStorage _ belowZeroArena 0 [(0, 1)] (0, 1) belowZero _ _
    false hstored hstored hstored hstored (List.nodup_singleton 0) hfits ?_ List.mem_cons_self ?_ rfl
  · rintro ⟨⟩
  · simp [HasSlot, belowZeroArena]

end Example

end PolygonArb
