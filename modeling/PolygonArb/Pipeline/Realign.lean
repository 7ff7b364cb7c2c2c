import PolygonArb.Pipeline.ArenaInvariant

/-!
# Realigning a cached route with the pool metadata

`realign_uni_cycle_from_pool_meta` of `pipeline/local_sim.rs`.  A cached route may name tokens and legs
that the metadata of its pools no longer has.  Every hop is first aligned on its own (`alignHop`); when
the hops no longer meet, each is anchored again at the end of the one before it (`reanchor`).

`Agrees` is what an aligned hop looks like.  `alignHop` makes a hop agree and leaves one that does; so a
second realignment finds nothing to do.
-/

namespace PolygonArb

open IndexTable

/-! ## Metadata -/

/-- Arena-synced rows are dense; a row elsewhere is searched. -/
def poolMetaAt (poolMetas : List PoolMeta) (index : PoolIndex) : Option PoolMeta :=
  match poolMetas[index]? with
  | some row =>
      if row.poolIndex = index then some row else poolMetas.find? (·.poolIndex = index)
  | none => poolMetas.find? (·.poolIndex = index)

def usdcE : Address := 0x2791bca1f2de4661ed88a30c99a7a9449aa84174#160

def usdcNative : Address := 0x3c499c542cef5e3811e1192ce70d8cc03d5c3359#160

def isPolygonUsdStable (addr : Address) : Bool := addr = usdcE || addr = usdcNative

/-- Identical addresses, or both of them Polygon USD stables. -/
def polygonUsdStableEquivalent (a b : Address) : Bool :=
  a = b || (isPolygonUsdStable a && isPolygonUsdStable b)

namespace ProtocolType

def isUni : ProtocolType → Bool
  | .uniswapV2 | .uniswapV3 | .uniswapV4 => true
  | _ => false

/-- The families whose legs are looked up in the metadata while their tokens stay. -/
def remapsLegs : ProtocolType → Bool
  | .curveStable | .curveCrypto | .dodo | .woofi => true
  | _ => false

end ProtocolType

/-! ## One hop -/

section Align

variable (arena : StateArena) (poolMetas : List PoolMeta)

/-- The leg of a token: by index, else by an address that counts as the same. -/
def metaPos (same : Address → Address → Bool) (tokens : List TokenIndex) (tok : TokenIndex) :
    Option ℕ :=
  (tokens.findIdx? (· = tok)).or
    ((arena.tokenAddress tok).bind fun want =>
      tokens.findIdx? fun t => (arena.tokenAddress t).any fun addr => same addr want)

/-- The two legs cannot be those of a pool with `n` tokens. -/
def legsOutside (n inPos outPos : ℕ) : Bool := n ≤ inPos || n ≤ outPos || inPos = outPos

/-- The legs that the metadata gives a Curve, DODO or WooFi hop; nothing on stale metadata. -/
def legIndices (row : PoolMeta) (edge : Edge) : Option (ℕ × ℕ) := do
  let inPos ← metaPos arena (· = ·) row.tokens edge.tokenIn
  let outPos ← metaPos arena (· = ·) row.tokens edge.tokenOut
  let state := arena.poolState edge.poolIndex
  let curveLegs := match state with
    | some (.curve s) => legsOutside s.balances.length inPos outPos
    | _ => false
  let dodoLegs := edge.protocol = .dodo && legsOutside 2 inPos outPos
  let woofiLegs := match state with
    | some (.woofi s) => legsOutside s.tokens.length inPos outPos
    | _ => false
  if curveLegs || dodoLegs || woofiLegs then none
  else if 255 < inPos ∨ 255 < outPos then none
  else some (inPos, outPos)

def alignLegs (row : PoolMeta) (edge : Edge) : Edge :=
  match legIndices arena row edge with
  | none => edge
  | some (inIdx, outIdx) =>
      if edge.tokenInIdx ≠ inIdx ∨ edge.tokenOutIdx ≠ outIdx then
        { edge with tokenInIdx := inIdx, tokenOutIdx := outIdx, zeroForOne := inIdx < outIdx }
      else edge

/-- The hop between two legs of the metadata. -/
def onLegs (row : PoolMeta) (edge : Edge) (inIdx outIdx : ℕ) : Option Edge := do
  let metaIn ← row.tokens[inIdx]?
  let metaOut ← row.tokens[outIdx]?
  some { edge with
    tokenIn := metaIn, tokenOut := metaOut, tokenInIdx := inIdx, tokenOutIdx := outIdx }

/-- The same for legs found by a search, which must fit a byte. -/
def onFoundLegs (row : PoolMeta) (edge : Edge) (inPos outPos : ℕ) : Option Edge :=
  if 255 < inPos ∨ 255 < outPos then none else onLegs row edge inPos outPos

/-- The direction is the order of the addresses, where both are known. -/
def orient (edge : Edge) : Edge :=
  match arena.tokenAddress edge.tokenIn, arena.tokenAddress edge.tokenOut with
  | some aIn, some aOut => { edge with zeroForOne := aIn < aOut }
  | _, _ => edge

/-- A hop of a pool with an odd number of tokens, from the legs it already has. -/
def alignOddUni (row : PoolMeta) (edge : Edge) (inPos outPos : Option ℕ) : Option Edge :=
  let inI := edge.tokenInIdx
  let outI := edge.tokenOutIdx
  if row.tokens.length ≤ inI ∨ row.tokens.length ≤ outI ∨ inI = outI
      ∨ (inPos = none ∧ outPos = none) then none
  else do
    let metaIn ← row.tokens[inI]?
    let metaOut ← row.tokens[outI]?
    let inAgrees :=
      inPos = some inI || arena.tokenAddress edge.tokenIn = arena.tokenAddress metaIn
    let outAgrees :=
      outPos = some outI || arena.tokenAddress edge.tokenOut = arena.tokenAddress metaOut
    if !inAgrees && !outAgrees then none else onLegs row edge inI outI

/-- The legs of a Uniswap hop: both ends on the metadata, one end and its complement, or the legs the
hop already has. -/
def alignUni (row : PoolMeta) (edge : Edge) : Option Edge :=
  let inPos := metaPos arena polygonUsdStableEquivalent row.tokens edge.tokenIn
  let outPos := metaPos arena polygonUsdStableEquivalent row.tokens edge.tokenOut
  match inPos, outPos with
  | some i, some o => if i = o then none else onFoundLegs row edge i o
  | some i, none =>
      if row.tokens.length = 2 then onFoundLegs row edge i (1 - i)
      else alignOddUni arena row edge (some i) none
  | none, some o =>
      if row.tokens.length = 2 then onFoundLegs row edge (1 - o) o
      else alignOddUni arena row edge none (some o)
  | none, none =>
      if row.tokens.length = 2 then none else alignOddUni arena row edge none none

/-- One hop on its own.  A hop without metadata stays. -/
def alignHop (edge : Edge) : Option Edge :=
  match poolMetaAt poolMetas edge.poolIndex with
  | none => some edge
  | some row =>
      if row.tokens.length < 2 then some edge
      else if edge.protocol.remapsLegs then some (alignLegs arena row edge)
      else if edge.protocol.isUni then (alignUni arena row edge).map (orient arena)
      else some edge

def alignHops : List Edge → Option (List Edge)
  | [] => some []
  | edge :: rest => do
      let edge ← alignHop arena poolMetas edge
      let rest ← alignHops rest
      some (edge :: rest)

/-! ## The route -/

def addrEq (a b : TokenIndex) : Bool :=
  a = b || ((arena.tokenAddress a).isSome && arena.tokenAddress a = arena.tokenAddress b)

/-- Every hop ends where the next one begins. -/
def hopOk : List Edge → Bool
  | edge :: next :: rest => addrEq arena edge.tokenOut next.tokenIn && hopOk (next :: rest)
  | _ => true

/-- The out leg of a hop anchored at leg `inPos`. -/
def anchoredOut (row : PoolMeta) (edge : Edge) (inPos : ℕ) : Option ℕ :=
  if row.tokens.length = 2 then some (1 - inPos)
  else (row.tokens.findIdx? (· = edge.tokenOut)).filter (· ≠ inPos)

/-- A hop anchored at the token `need`; one that cannot be stays. -/
def reanchorHop (need : TokenIndex) (edge : Edge) : Edge :=
  if addrEq arena edge.tokenIn need then { edge with tokenIn := need }
  else
    match poolMetaAt poolMetas edge.poolIndex with
    | none => edge
    | some row =>
        if edge.protocol.isUni = false ∨ row.tokens.length < 2 then edge
        else
          let anchored := do
            let inPos ← row.tokens.findIdx? (· = need)
            let outPos ← anchoredOut row edge inPos
            onFoundLegs row edge inPos outPos
          match anchored with
          | none => edge
          | some anchored => orient arena anchored

def reanchorFrom (need : TokenIndex) : List Edge → List Edge
  | [] => []
  | edge :: rest =>
      let edge := reanchorHop arena poolMetas need edge
      edge :: reanchorFrom edge.tokenOut rest

/-- Each hop after the first anchored at the end of the one before it. -/
def reanchor : List Edge → List Edge
  | [] => []
  | edge :: rest => edge :: reanchorFrom arena poolMetas edge.tokenOut rest

/-- Both ends of every Uniswap hop are on the metadata of its pool, where there is some. -/
def cycleV2EdgesMatchPoolMeta (edges : List Edge) : Bool :=
  edges.all fun edge =>
    if edge.protocol.isUni = false then true
    else
      match arena.tokenAddress edge.tokenIn, arena.tokenAddress edge.tokenOut with
      | some tin, some tout =>
          match poolMetaAt poolMetas edge.poolIndex with
          | some row =>
              if row.tokens.length < 2 then true
              else
                let onMeta (want : Address) := row.tokens.any fun t =>
                  (arena.tokenAddress t).any fun addr => polygonUsdStableEquivalent addr want
                onMeta tin && onMeta tout
          | none => true
      | _, _ => false

/-- The route over the new hops; a start token that no hop starts at gives way to the first one. -/
def restart (cycle : FoundCycle) (edges : List Edge) : FoundCycle :=
  { cycle with
    edges := edges
    startToken :=
      match edges with
      | [] => cycle.startToken
      | first :: _ =>
          if edges.any (·.tokenIn = cycle.startToken) then cycle.startToken else first.tokenIn }

def realignUniCycleFromPoolMeta (cycle : FoundCycle) : Option FoundCycle := do
  let owned ← alignHops arena poolMetas cycle.edges
  if hopOk arena owned then some (restart cycle owned)
  else
    let anchored := reanchor arena poolMetas owned
    if hopOk arena anchored then some (restart cycle anchored)
    else if hopOk arena cycle.edges && cycleV2EdgesMatchPoolMeta arena poolMetas cycle.edges then
      some cycle
    else none

end Align

/-! ## What an aligned hop looks like -/

/-- The hop trades the same pool under the same protocol and fee. -/
structure SameSwap (edge edge' : Edge) : Prop where
  pool : edge'.poolIndex = edge.poolIndex
  protocol : edge'.protocol = edge.protocol
  fee : edge'.feeBps = edge.feeBps

/-- The hop begins and ends at the same tokens. -/
structure SameTokens (edge edge' : Edge) : Prop where
  tokenIn : edge'.tokenIn = edge.tokenIn
  tokenOut : edge'.tokenOut = edge.tokenOut

/-- The metadata has nothing to say about the hop: there is none, or it is not of a family that is realigned. -/
def Unread (poolMetas : List PoolMeta) (edge : Edge) : Prop :=
  ∀ row, poolMetaAt poolMetas edge.poolIndex = some row → 2 ≤ row.tokens.length →
    edge.protocol.isUni = false ∧ edge.protocol.remapsLegs = false

/-- What no realignment touches: the tokens of a hop that is no Uniswap hop, and a hop that the metadata has
nothing to say about. -/
structure Untouched (poolMetas : List PoolMeta) (edge edge' : Edge) : Prop where
  tokens : edge.protocol.isUni = false → SameTokens edge edge'
  unread : Unread poolMetas edge → edge' = edge

/-- Both tokens of a Uniswap hop are on the metadata of its pool, where there is some. -/
def OnMetadata (poolMetas : List PoolMeta) (edge : Edge) : Prop :=
  ∀ row, poolMetaAt poolMetas edge.poolIndex = some row → 2 ≤ row.tokens.length →
    edge.protocol.isUni = true → edge.tokenIn ∈ row.tokens ∧ edge.tokenOut ∈ row.tokens

/-- The legs of a Uniswap hop are the metadata's, and its direction is theirs. -/
structure UniAgrees (arena : StateArena) (row : PoolMeta) (edge : Edge) : Prop where
  legIn : row.tokens[edge.tokenInIdx]? = some edge.tokenIn
  legOut : row.tokens[edge.tokenOutIdx]? = some edge.tokenOut
  distinct : edge.tokenInIdx ≠ edge.tokenOutIdx
  direction : ∀ aIn aOut, arena.tokenAddress edge.tokenIn = some aIn →
    arena.tokenAddress edge.tokenOut = some aOut → edge.zeroForOne = decide (aIn < aOut)

/-- The hop agrees with the metadata of its pool, where there is some: a Uniswap hop in tokens, legs
and direction, a Curve, DODO or WooFi hop in the legs that the metadata gives it. -/
def Agrees (arena : StateArena) (poolMetas : List PoolMeta) (edge : Edge) : Prop :=
  ∀ row, poolMetaAt poolMetas edge.poolIndex = some row → 2 ≤ row.tokens.length →
    (edge.protocol.isUni = true → UniAgrees arena row edge) ∧
      (edge.protocol.remapsLegs = true →
        ∀ legs, legIndices arena row edge = some legs → (edge.tokenInIdx, edge.tokenOutIdx) = legs)

/-- Leg indices are bytes. -/
def ByteLegs (edge : Edge) : Prop := edge.tokenInIdx ≤ 255 ∧ edge.tokenOutIdx ≤ 255

section Agree

variable {arena : StateArena} {poolMetas : List PoolMeta} {row : PoolMeta} {edge edge' : Edge}
  {i o : ℕ}

lemma SameSwap.refl (edge : Edge) : SameSwap edge edge := ⟨rfl, rfl, rfl⟩

lemma SameSwap.trans {edge'' : Edge} (h : SameSwap edge edge') (h' : SameSwap edge' edge'') :
    SameSwap edge edge'' :=
  ⟨h'.pool.trans h.pool, h'.protocol.trans h.protocol, h'.fee.trans h.fee⟩

lemma orient_eq (arena : StateArena) (edge : Edge) :
    ∃ zeroForOne, orient arena edge = { edge with zeroForOne } := by
  rw [orient]
  split
  · exact ⟨_, rfl⟩
  · exact ⟨edge.zeroForOne, rfl⟩

lemma onLegs_eq_some (h : onLegs row edge i o = some edge') :
    ∃ metaIn metaOut, row.tokens[i]? = some metaIn ∧ row.tokens[o]? = some metaOut ∧
      edge' = { edge with
        tokenIn := metaIn, tokenOut := metaOut, tokenInIdx := i, tokenOutIdx := o } := by
  simp only [onLegs, Option.bind_eq_bind, Option.bind_eq_some_iff, Option.some.injEq] at h
  rcases h with ⟨metaIn, hin, metaOut, hout, heq⟩
  exact ⟨metaIn, metaOut, hin, hout, heq.symm⟩

/-- A hop put on two distinct legs and oriented agrees. -/
lemma uniAgrees_orient (arena : StateArena) (h : onLegs row edge i o = some edge') (hio : i ≠ o) :
    UniAgrees arena row (orient arena edge') ∧ SameSwap edge (orient arena edge') ∧
      (orient arena edge').tokenInIdx = i ∧ (orient arena edge').tokenOutIdx = o := by
  rcases onLegs_eq_some h with ⟨metaIn, metaOut, hin, hout, rfl⟩
  have hdir : ∀ e : Edge, ∀ aIn aOut, arena.tokenAddress e.tokenIn = some aIn →
      arena.tokenAddress e.tokenOut = some aOut →
        (orient arena e).zeroForOne = decide (aIn < aOut) := by
    intro e aIn aOut hIn hOut
    rw [orient, hIn, hOut]
  rcases orient_eq arena { edge with
    tokenIn := metaIn, tokenOut := metaOut, tokenInIdx := i, tokenOutIdx := o } with ⟨zfo, heq⟩
  refine ⟨⟨?_, ?_, ?_, ?_⟩, ?_, ?_, ?_⟩
  · rw [heq]
    exact hin
  · rw [heq]
    exact hout
  · rw [heq]
    exact hio
  · intro aIn aOut hIn hOut
    refine hdir _ aIn aOut ?_ ?_
    · rw [heq] at hIn
      exact hIn
    · rw [heq] at hOut
      exact hOut
  · rw [heq]
    exact ⟨rfl, rfl, rfl⟩
  · rw [heq]
  · rw [heq]

lemma onFoundLegs_eq_some (h : onFoundLegs row edge i o = some edge') :
    onLegs row edge i o = some edge' ∧ i ≤ 255 ∧ o ≤ 255 := by
  rw [onFoundLegs] at h
  split_ifs at h with hbyte
  exact ⟨h, by omega, by omega⟩

/-- The legs a Uniswap hop is put on. -/
def PutOnLegs (row : PoolMeta) (edge edge' : Edge) : Prop :=
  ∃ i o, i ≠ o ∧ onLegs row edge i o = some edge' ∧ (ByteLegs edge → i ≤ 255 ∧ o ≤ 255)

lemma PutOnLegs.of_found (hio : i ≠ o) (h : onFoundLegs row edge i o = some edge') :
    PutOnLegs row edge edge' := by
  rcases onFoundLegs_eq_some h with ⟨hlegs, hi, ho⟩
  exact ⟨i, o, hio, hlegs, fun _ => ⟨hi, ho⟩⟩

lemma putOnLegs_alignOddUni {inPos outPos : Option ℕ}
    (h : alignOddUni arena row edge inPos outPos = some edge') : PutOnLegs row edge edge' := by
  simp only [alignOddUni] at h
  split_ifs at h with hodd
  simp only [Option.bind_eq_bind, Option.bind_eq_some_iff] at h
  rcases h with ⟨metaIn, hin, metaOut, hout, h⟩
  split_ifs at h
  refine ⟨edge.tokenInIdx, edge.tokenOutIdx, ?_, h, id⟩
  intro heq
  exact hodd (Or.inr (Or.inr (Or.inl heq)))

lemma putOnLegs_alignUni (h : alignUni arena row edge = some edge') :
    PutOnLegs row edge edge' := by
  rw [alignUni] at h
  split at h
  · split_ifs at h with hio
    exact .of_found hio h
  · split_ifs at h
    · exact .of_found (by omega) h
    · exact putOnLegs_alignOddUni h
  · split_ifs at h
    · exact .of_found (by omega) h
    · exact putOnLegs_alignOddUni h
  · split_ifs at h
    exact putOnLegs_alignOddUni h

/-- The families are apart. -/
lemma remapsLegs_of_isUni {protocol : ProtocolType} (h : protocol.isUni = true) :
    protocol.remapsLegs = false := by
  cases protocol <;> first | rfl | cases h

/-- A hop whose legs were looked up has them. -/
lemma alignLegs_spec (arena : StateArena) (row : PoolMeta) (edge : Edge) :
    SameSwap edge (alignLegs arena row edge) ∧
      ∀ legs, legIndices arena row (alignLegs arena row edge) = some legs →
        ((alignLegs arena row edge).tokenInIdx, (alignLegs arena row edge).tokenOutIdx) = legs := by
  rw [alignLegs]
  split
  · rename_i hnone
    refine ⟨.refl edge, ?_⟩
    intro legs hlegs
    rw [hnone] at hlegs
    cases hlegs
  · rename_i inIdx outIdx hsome
    split_ifs with hchanged
    · refine ⟨⟨rfl, rfl, rfl⟩, ?_⟩
      intro legs hlegs
      replace hlegs : legIndices arena row edge = some legs := hlegs
      rw [hsome] at hlegs
      exact Option.some.inj hlegs
    · refine ⟨.refl edge, ?_⟩
      intro legs hlegs
      rw [hsome] at hlegs
      rw [← Option.some.inj hlegs]
      push Not at hchanged
      rw [hchanged.1, hchanged.2]

lemma byteLegs_alignLegs (h : ByteLegs edge) : ByteLegs (alignLegs arena row edge) := by
  rw [alignLegs]
  split
  · exact h
  · rename_i inIdx outIdx hsome
    split_ifs
    · simp only [legIndices, Option.bind_eq_bind, Option.bind_eq_some_iff] at hsome
      rcases hsome with ⟨inPos, hin, outPos, hout, hlegs⟩
      split_ifs at hlegs with hbad hbyte
      simp only [Option.some.injEq, Prod.mk.injEq] at hlegs
      exact ⟨by show inIdx ≤ 255; omega, by show outIdx ≤ 255; omega⟩
    · exact h

/-- A Uniswap hop has only its row to agree with. -/
lemma agrees_of_uni (hrow : poolMetaAt poolMetas edge.poolIndex = some row)
    (huni : edge.protocol.isUni = true) (hsame : SameSwap edge edge')
    (hagrees : UniAgrees arena row edge') : Agrees arena poolMetas edge' := by
  intro row' hrow' _
  rw [hsame.pool, hrow] at hrow'
  cases hrow'
  rw [hsame.protocol]
  constructor
  · intro _
    exact hagrees
  · intro hlegs
    rw [remapsLegs_of_isUni huni] at hlegs
    cases hlegs

/-- Aligning a hop makes it agree with the metadata. -/
theorem alignHop_agrees (h : alignHop arena poolMetas edge = some edge') :
    Agrees arena poolMetas edge' ∧ SameSwap edge edge' ∧ (ByteLegs edge → ByteLegs edge') := by
  rw [alignHop] at h
  cases hrow : poolMetaAt poolMetas edge.poolIndex with
  | none =>
      rw [hrow] at h
      cases h
      refine ⟨?_, .refl edge, id⟩
      intro row hrow'
      rw [hrow] at hrow'
      cases hrow'
  | some row =>
      rw [hrow] at h
      dsimp only at h
      split_ifs at h with hshort hlegs huni
      · cases h
        refine ⟨?_, .refl edge, id⟩
        intro row' hrow' hlong
        rw [hrow] at hrow'
        cases hrow'
        omega
      · cases h
        rcases alignLegs_spec arena row edge with ⟨hsame, hspec⟩
        refine ⟨?_, hsame, byteLegs_alignLegs⟩
        intro row' hrow' _
        rw [hsame.pool, hrow] at hrow'
        cases hrow'
        rw [hsame.protocol]
        constructor
        · intro huni
          rw [remapsLegs_of_isUni huni] at hlegs
          cases hlegs
        · intro _
          exact hspec
      · rcases Option.map_eq_some_iff.mp h with ⟨put, hput, rfl⟩
        rcases putOnLegs_alignUni hput with ⟨i, o, hio, honLegs, hbyte⟩
        rcases uniAgrees_orient arena honLegs hio with ⟨hagrees, hsame, hi, ho⟩
        refine ⟨agrees_of_uni hrow huni hsame hagrees, hsame, ?_⟩
        intro hb
        rw [ByteLegs, hi, ho]
        exact hbyte hb
      · cases h
        refine ⟨?_, .refl edge, id⟩
        intro row' _ _
        constructor
        · intro huni'
          exact absurd huni' huni
        · intro hlegs'
          exact absurd hlegs' hlegs

lemma SameTokens.refl (edge : Edge) : SameTokens edge edge := ⟨rfl, rfl⟩

lemma Untouched.refl (edge : Edge) : Untouched poolMetas edge edge := ⟨fun _ => .refl edge, fun _ => rfl⟩

lemma Untouched.trans {edge'' : Edge} (hsame : SameSwap edge edge') (h : Untouched poolMetas edge edge')
    (h' : Untouched poolMetas edge' edge'') : Untouched poolMetas edge edge'' where
  tokens := fun huni => by
    have hnext := h'.tokens (hsame.protocol ▸ huni)
    exact ⟨hnext.tokenIn.trans (h.tokens huni).tokenIn, hnext.tokenOut.trans (h.tokens huni).tokenOut⟩
  unread := fun hunread => by
    have heq := h.unread hunread
    rw [h'.unread (heq ▸ hunread), heq]

lemma sameTokens_alignLegs : SameTokens edge (alignLegs arena row edge) := by
  rw [alignLegs]
  split
  · exact .refl edge
  · split_ifs
    · exact ⟨rfl, rfl⟩
    · exact .refl edge

lemma alignHop_untouched (h : alignHop arena poolMetas edge = some edge') :
    Untouched poolMetas edge edge' := by
  rw [alignHop] at h
  cases hrow : poolMetaAt poolMetas edge.poolIndex with
  | none =>
      rw [hrow] at h
      cases h
      exact .refl edge
  | some row =>
      rw [hrow] at h
      dsimp only at h
      split_ifs at h with hshort hlegs huni
      · cases h
        exact .refl edge
      · cases h
        refine ⟨fun _ => sameTokens_alignLegs, fun hunread => ?_⟩
        rw [(hunread row hrow (by omega)).2] at hlegs
        cases hlegs
      · refine ⟨fun hnot => ?_, fun hunread => ?_⟩
        · rw [huni] at hnot
          cases hnot
        · rw [(hunread row hrow (by omega)).1] at huni
          cases huni
      · cases h
        exact .refl edge

lemma metaPos_of_mem {same : Address → Address → Bool} {tokens : List TokenIndex} {tok : TokenIndex}
    (h : tok ∈ tokens) : ∃ i, metaPos arena same tokens tok = some i ∧ tokens[i]? = some tok := by
  cases hfind : tokens.findIdx? (· = tok) with
  | none =>
      rw [List.findIdx?_eq_none_iff] at hfind
      simpa using hfind tok h
  | some i =>
      refine ⟨i, by rw [metaPos, hfind, Option.some_or], ?_⟩
      obtain ⟨hlt, heq, -⟩ := List.findIdx?_eq_some_iff_getElem.mp hfind
      rw [List.getElem?_eq_getElem hlt, of_decide_eq_true heq]

/-- A hop whose tokens are on the metadata keeps them. -/
lemma alignHop_sameTokens (hon : OnMetadata poolMetas edge)
    (h : alignHop arena poolMetas edge = some edge') : SameTokens edge edge' := by
  by_cases huni : edge.protocol.isUni = true
  swap
  · exact (alignHop_untouched h).tokens (Bool.eq_false_of_not_eq_true huni)
  rw [alignHop] at h
  cases hrow : poolMetaAt poolMetas edge.poolIndex with
  | none =>
      rw [hrow] at h
      cases h
      exact .refl edge
  | some row =>
      rw [hrow] at h
      dsimp only at h
      split_ifs at h with hshort hlegs
      · cases h
        exact .refl edge
      · rw [remapsLegs_of_isUni huni] at hlegs
        cases hlegs
      · rcases Option.map_eq_some_iff.mp h with ⟨put, hput, rfl⟩
        obtain ⟨hin, hout⟩ := hon row hrow (by omega) huni
        obtain ⟨i, hi, htokenIn⟩ := @metaPos_of_mem arena polygonUsdStableEquivalent _ _ hin
        obtain ⟨o, ho, htokenOut⟩ := @metaPos_of_mem arena polygonUsdStableEquivalent _ _ hout
        rw [alignUni, hi, ho] at hput
        dsimp only at hput
        split_ifs at hput
        obtain ⟨metaIn, metaOut, hmetaIn, hmetaOut, rfl⟩ := onLegs_eq_some (onFoundLegs_eq_some hput).1
        rw [htokenIn, Option.some.injEq] at hmetaIn
        rw [htokenOut, Option.some.injEq] at hmetaOut
        obtain ⟨zeroForOne, horient⟩ := orient_eq arena
          { edge with tokenIn := metaIn, tokenOut := metaOut, tokenInIdx := i, tokenOutIdx := o }
        rw [horient]
        exact ⟨hmetaIn.symm, hmetaOut.symm⟩

lemma sameTokens_alignHops {edges edges' : List Edge} (hon : ∀ e ∈ edges, OnMetadata poolMetas e)
    (h : alignHops arena poolMetas edges = some edges') : List.Forall₂ SameTokens edges edges' := by
  induction edges generalizing edges' with
  | nil =>
      cases h
      exact .nil
  | cons e edges ih =>
      simp only [alignHops, Option.bind_eq_bind, Option.bind_eq_some_iff, Option.some.injEq] at h
      rcases h with ⟨e', he, rest, hrest, rfl⟩
      rcases List.forall_mem_cons.mp hon with ⟨hhead, htail⟩
      exact .cons (alignHop_sameTokens hhead he) (ih htail hrest)

/-! ## An aligned hop stays -/

lemma mem_of_poolMetaAt {index : PoolIndex} (h : poolMetaAt poolMetas index = some row) :
    row ∈ poolMetas := by
  rw [poolMetaAt] at h
  split at h
  · rename_i hget
    split_ifs at h
    · cases h
      exact List.mem_of_getElem? hget
    · exact List.mem_of_find?_eq_some h
  · exact List.mem_of_find?_eq_some h

/-- A token listed once is found at its leg. -/
lemma metaPos_of_nodup {same : Address → Address → Bool} {tokens : List TokenIndex}
    (hnodup : tokens.Nodup) {tok : TokenIndex} (h : tokens[i]? = some tok) :
    metaPos arena same tokens tok = some i := by
  have hfind : tokens.findIdx? (· = tok) = some i := (inverseIndex_findIdx? hnodup tok i).mpr h
  rw [metaPos, hfind, Option.some_or]

lemma onLegs_self (h : UniAgrees arena row edge) :
    onLegs row edge edge.tokenInIdx edge.tokenOutIdx = some edge := by
  rw [onLegs, h.legIn, h.legOut]
  rfl

lemma orient_self (h : UniAgrees arena row edge) : orient arena edge = edge := by
  rw [orient]
  split
  · rename_i aIn aOut hIn hOut
    rw [← h.direction aIn aOut hIn hOut]
  · rfl

lemma alignUni_self (h : UniAgrees arena row edge) (hnodup : row.tokens.Nodup)
    (hbyte : ByteLegs edge) : alignUni arena row edge = some edge := by
  rw [alignUni, metaPos_of_nodup hnodup h.legIn, metaPos_of_nodup hnodup h.legOut]
  dsimp only
  rw [if_neg h.distinct, onFoundLegs, if_neg ?_, onLegs_self h]
  rcases hbyte with ⟨hin, hout⟩
  omega

lemma alignLegs_self
    (h : ∀ legs, legIndices arena row edge = some legs → (edge.tokenInIdx, edge.tokenOutIdx) = legs) :
    alignLegs arena row edge = edge := by
  rw [alignLegs]
  split
  · rfl
  · rename_i inIdx outIdx hsome
    have hlegs := h _ hsome
    simp only [Prod.mk.injEq] at hlegs
    rw [if_neg (by simp [hlegs])]

/-- A hop that agrees with metadata without repetitions is left as it is. -/
theorem alignHop_self (hnodup : ∀ row ∈ poolMetas, row.tokens.Nodup)
    (h : Agrees arena poolMetas edge) (hbyte : ByteLegs edge) :
    alignHop arena poolMetas edge = some edge := by
  rw [alignHop]
  cases hrow : poolMetaAt poolMetas edge.poolIndex with
  | none => rfl
  | some row =>
      dsimp only
      split_ifs with hshort hlegs huni
      · rfl
      · rw [alignLegs_self ((h row hrow (by omega)).2 hlegs)]
      · have hagrees := (h row hrow (by omega)).1 huni
        rw [alignUni_self hagrees (hnodup row (mem_of_poolMetaAt hrow)) hbyte, Option.map_some,
          orient_self hagrees]
      · rfl

lemma alignHops_self (hnodup : ∀ row ∈ poolMetas, row.tokens.Nodup) {edges : List Edge}
    (h : ∀ e ∈ edges, Agrees arena poolMetas e ∧ ByteLegs e) :
    alignHops arena poolMetas edges = some edges := by
  induction edges with
  | nil => rfl
  | cons e edges ih =>
      rcases List.forall_mem_cons.mp h with ⟨hhead, htail⟩
      rw [alignHops, alignHop_self hnodup hhead.1 hhead.2, ih htail]
      rfl

/-! ## Contiguity -/

/-- Every hop ends at the token the next one begins with. -/
def Contiguous (edges : List Edge) : Prop :=
  edges.IsChain fun edge next => edge.tokenOut = next.tokenIn

lemma addrEq_iff (h : arena.inner.TablesOk) {a b : TokenIndex} : addrEq arena a b = true ↔ a = b := by
  rw [addrEq, Bool.or_eq_true, decide_eq_true_eq, Bool.and_eq_true, decide_eq_true_eq]
  constructor
  · rintro (heq | ⟨hsome, heq⟩)
    · exact heq
    · rcases Option.isSome_iff_exists.mp hsome with ⟨x, hx⟩
      have ha := (h.token x a).mpr hx
      have hb := (h.token x b).mpr (heq.symm.trans hx)
      exact Option.some.inj (ha.symm.trans hb)
  · exact Or.inl

lemma hopOk_iff (h : arena.inner.TablesOk) {edges : List Edge} :
    hopOk arena edges = true ↔ Contiguous edges := by
  induction edges with
  | nil => simp [hopOk, Contiguous]
  | cons e edges ih =>
      cases edges with
      | nil => simp [hopOk, Contiguous]
      | cons next rest =>
          rw [hopOk, Bool.and_eq_true, addrEq_iff h, ih, Contiguous, Contiguous,
            List.isChain_cons_cons]

/-- Anchoring a hop keeps its agreement. -/
lemma reanchorHop_agrees (ht : arena.inner.TablesOk) (need : TokenIndex)
    (h : Agrees arena poolMetas edge) :
    Agrees arena poolMetas (reanchorHop arena poolMetas need edge) ∧
      SameSwap edge (reanchorHop arena poolMetas need edge) ∧
      (ByteLegs edge → ByteLegs (reanchorHop arena poolMetas need edge)) := by
  rw [reanchorHop]
  split_ifs with hmeet
  · rw [← (addrEq_iff ht).mp hmeet]
    exact ⟨h, .refl edge, id⟩
  · split
    · exact ⟨h, .refl edge, id⟩
    · rename_i row hrow
      split_ifs with hother
      · exact ⟨h, .refl edge, id⟩
      · push Not at hother
        dsimp only
        split
        · exact ⟨h, .refl edge, id⟩
        · rename_i anchored hanchored
          simp only [Option.bind_eq_bind, Option.bind_eq_some_iff] at hanchored
          rcases hanchored with ⟨inPos, hin, outPos, hout, hfound⟩
          rcases onFoundLegs_eq_some hfound with ⟨hlegs, hi, ho⟩
          have hio : inPos ≠ outPos := by
            rw [anchoredOut] at hout
            split_ifs at hout
            · have := Option.some.inj hout
              omega
            · rw [Option.filter_eq_some_iff] at hout
              intro heq
              simp [heq] at hout
          rcases uniAgrees_orient arena hlegs hio with ⟨hagrees, hsame, hin', hout'⟩
          refine ⟨agrees_of_uni hrow (by simpa using hother.1) hsame hagrees, hsame, ?_⟩
          intro _
          rw [ByteLegs, hin', hout']
          exact ⟨hi, ho⟩

lemma reanchorHop_untouched (ht : arena.inner.TablesOk) (need : TokenIndex) (edge : Edge) :
    Untouched poolMetas edge (reanchorHop arena poolMetas need edge) := by
  rw [reanchorHop]
  split_ifs with hmeet
  · rw [← (addrEq_iff ht).mp hmeet]
    exact .refl edge
  · split
    · exact .refl edge
    · rename_i row hrow
      split_ifs with hother
      · exact .refl edge
      · push Not at hother
        refine ⟨fun huni => absurd huni hother.1, fun hunread => ?_⟩
        exact absurd (hunread row hrow hother.2).1 hother.1

/-! ## The realigned route -/

/-- A new hop for an old one: the same pool, in agreement with its metadata. -/
structure RealignedHop (arena : StateArena) (poolMetas : List PoolMeta) (edge edge' : Edge) : Prop where
  same : SameSwap edge edge'
  untouched : Untouched poolMetas edge edge'
  agrees : Agrees arena poolMetas edge'
  byteLegs : ByteLegs edge → ByteLegs edge'

def Realigned (arena : StateArena) (poolMetas : List PoolMeta) (edges edges' : List Edge) : Prop :=
  List.Forall₂ (RealignedHop arena poolMetas) edges edges'

lemma realigned_alignHops {edges edges' : List Edge}
    (h : alignHops arena poolMetas edges = some edges') :
    Realigned arena poolMetas edges edges' := by
  induction edges generalizing edges' with
  | nil =>
      cases h
      exact .nil
  | cons e edges ih =>
      simp only [alignHops, Option.bind_eq_bind, Option.bind_eq_some_iff, Option.some.injEq] at h
      rcases h with ⟨e', he, rest, hrest, rfl⟩
      rcases alignHop_agrees he with ⟨hagrees, hsame, hbyte⟩
      exact .cons ⟨hsame, alignHop_untouched he, hagrees, hbyte⟩ (ih hrest)

lemma realigned_reanchorFrom (ht : arena.inner.TablesOk) {edges edges' : List Edge}
    (h : Realigned arena poolMetas edges edges') (need : TokenIndex) :
    Realigned arena poolMetas edges (reanchorFrom arena poolMetas need edges') := by
  induction h generalizing need with
  | nil => exact .nil
  | cons hhead _ ih =>
      rcases hhead with ⟨hsame, huntouched, hagrees, hbyte⟩
      rcases reanchorHop_agrees ht need hagrees with ⟨hagrees', hsame', hbyte'⟩
      exact .cons ⟨hsame.trans hsame', huntouched.trans hsame (reanchorHop_untouched ht need _), hagrees',
        hbyte' ∘ hbyte⟩ (ih _)

lemma realigned_reanchor (ht : arena.inner.TablesOk) {edges edges' : List Edge}
    (h : Realigned arena poolMetas edges edges') :
    Realigned arena poolMetas edges (reanchor arena poolMetas edges') := by
  cases h with
  | nil => exact .nil
  | cons hhead htail => exact .cons hhead (realigned_reanchorFrom ht htail _)

variable {cycle result : FoundCycle} {edges : List Edge}

/-- What a realignment can return: the route over realigned hops that meet, or, when they do not, the
route it was given. -/
lemma realign_cases (ht : arena.inner.TablesOk)
    (h : realignUniCycleFromPoolMeta arena poolMetas cycle = some result) :
    (∃ edges, Realigned arena poolMetas cycle.edges edges ∧ Contiguous edges ∧
        result = restart cycle edges) ∨
      result = cycle ∧ Contiguous cycle.edges ∧
        cycleV2EdgesMatchPoolMeta arena poolMetas cycle.edges = true := by
  simp only [realignUniCycleFromPoolMeta, Option.bind_eq_bind, Option.bind_eq_some_iff] at h
  rcases h with ⟨owned, halign, h⟩
  have howned := realigned_alignHops halign
  split_ifs at h with hok hanchored hkeep
  · exact Or.inl ⟨owned, howned, (hopOk_iff ht).mp hok, (Option.some.inj h).symm⟩
  · exact Or.inl ⟨_, realigned_reanchor ht howned, (hopOk_iff ht).mp hanchored,
      (Option.some.inj h).symm⟩
  · rw [Bool.and_eq_true] at hkeep
    exact Or.inr ⟨(Option.some.inj h).symm, (hopOk_iff ht).mp hkeep.1, hkeep.2⟩

/-- A route restarted on its hops starts at one of them. -/
lemma restart_restart : restart (restart cycle edges) edges = restart cycle edges := by
  cases edges with
  | nil => rfl
  | cons first rest =>
      by_cases hstart : (first :: rest).any (·.tokenIn = cycle.startToken) = true
      · simp only [restart, hstart, if_true]
      · have hfirst : (first :: rest).any (·.tokenIn = first.tokenIn) = true := by simp
        simp only [restart, hstart, if_false, hfirst, if_true, Bool.false_eq_true]

/-- The old start token, or the first hop's where no hop starts at the old one. -/
def StartKept (cycle result : FoundCycle) : Prop :=
  result.startToken = cycle.startToken ∨
    (∀ e ∈ result.edges, e.tokenIn ≠ cycle.startToken) ∧
      ∃ first, result.edges.head? = some first ∧ result.startToken = first.tokenIn

lemma startKept_restart : StartKept cycle (restart cycle edges) := by
  cases edges with
  | nil => exact Or.inl rfl
  | cons first rest =>
      by_cases hstart : (first :: rest).any (·.tokenIn = cycle.startToken) = true
      · left
        simp only [restart, hstart, if_true]
      · right
        constructor
        · intro e he heq
          exact hstart (List.any_eq_true.mpr ⟨e, he, by simpa using heq⟩)
        · exact ⟨first, rfl, by simp only [restart, hstart, Bool.false_eq_true, if_false]⟩

/-- The route begins and ends at its start token. -/
def Loops (cycle : FoundCycle) : Prop :=
  cycle.edges.head?.map Edge.tokenIn = some cycle.startToken ∧
    cycle.edges.getLast?.map Edge.tokenOut = some cycle.startToken

lemma Contiguous.congr {edges' : List Edge} (h : Contiguous edges) (hsame : List.Forall₂ SameTokens edges edges') :
    Contiguous edges' := by
  induction hsame with
  | nil => exact h
  | cons hhead htail ih =>
      cases htail with
      | nil => exact List.isChain_singleton _
      | cons hnext htail =>
          rw [Contiguous, List.isChain_cons_cons] at h ⊢
          refine ⟨?_, ih h.2⟩
          rw [hhead.tokenOut, hnext.tokenIn]
          exact h.1

/-- Hops that meet and whose tokens are on the metadata need not be anchored again. -/
lemma realign_of_onMetadata (ht : arena.inner.TablesOk) (hcontig : Contiguous cycle.edges)
    (hon : ∀ e ∈ cycle.edges, OnMetadata poolMetas e)
    (h : realignUniCycleFromPoolMeta arena poolMetas cycle = some result) :
    List.Forall₂ SameTokens cycle.edges result.edges ∧ result = restart cycle result.edges := by
  simp only [realignUniCycleFromPoolMeta, Option.bind_eq_bind, Option.bind_eq_some_iff] at h
  rcases h with ⟨owned, halign, h⟩
  have hsame := sameTokens_alignHops hon halign
  rw [if_pos ((hopOk_iff ht).mpr (hcontig.congr hsame)), Option.some.injEq] at h
  rw [← h]
  exact ⟨hsame, rfl⟩

lemma Loops.restart (hloops : Loops cycle) (hsame : List.Forall₂ SameTokens cycle.edges edges) :
    Loops (restart cycle edges) ∧ (PolygonArb.restart cycle edges).startToken = cycle.startToken := by
  have hhead : ∀ {es es' : List Edge}, List.Forall₂ SameTokens es es' →
      es'.head?.map Edge.tokenIn = es.head?.map Edge.tokenIn := by
    intro es es' h
    cases h with
    | nil => rfl
    | cons hfirst _ => simp [hfirst.tokenIn]
  have hlast : ∀ {es es' : List Edge}, List.Forall₂ SameTokens es es' →
      es'.getLast?.map Edge.tokenOut = es.getLast?.map Edge.tokenOut := by
    intro es es' h
    induction h with
    | nil => rfl
    | cons hfirst hrest ih =>
        cases hrest with
        | nil => simp [hfirst.tokenOut]
        | cons hnext hrest => simpa [List.getLast?_cons_cons] using ih
  have hstart : (PolygonArb.restart cycle edges).startToken = cycle.startToken := by
    obtain ⟨first, hfirst, htoken⟩ := Option.map_eq_some_iff.mp ((hhead hsame).trans hloops.1)
    cases edges with
    | nil => rfl
    | cons edge rest =>
        obtain rfl := Option.some.inj hfirst
        simp [PolygonArb.restart, htoken]
  refine ⟨⟨?_, ?_⟩, hstart⟩
  · rw [hstart]
    exact (hhead hsame).trans hloops.1
  · rw [hstart]
    exact (hlast hsame).trans hloops.2

/-- A realigned route trades the same pools in the same order, its hops meet, and it starts where it
did or at its first hop.  Its hops agree with the metadata, or the route is the old one and has both
ends of its Uniswap hops on it.  Hops that are not realigned stay; and when the hops of the old route meet
and the tokens of its Uniswap hops are on the metadata, every hop keeps its tokens, and a route that was
closed is closed at the same token.  When no metadata lists a token twice, realigning it again changes
nothing. -/
theorem realign_keeps_route (ht : arena.inner.TablesOk)
    (hbytes : ∀ e ∈ cycle.edges, ByteLegs e)
    (h : realignUniCycleFromPoolMeta arena poolMetas cycle = some result) :
    List.Forall₂ (fun e e' => SameSwap e e' ∧ Untouched poolMetas e e') cycle.edges result.edges ∧
      Contiguous result.edges ∧ StartKept cycle result ∧
      ((∀ e ∈ result.edges, Agrees arena poolMetas e) ∨
        result = cycle ∧ cycleV2EdgesMatchPoolMeta arena poolMetas cycle.edges = true) ∧
      (Contiguous cycle.edges → (∀ e ∈ cycle.edges, OnMetadata poolMetas e) →
        List.Forall₂ SameTokens cycle.edges result.edges ∧
          (Loops cycle → Loops result ∧ result.startToken = cycle.startToken)) ∧
      ((∀ row ∈ poolMetas, row.tokens.Nodup) →
        realignUniCycleFromPoolMeta arena poolMetas result = some result) := by
  have hkept : Contiguous cycle.edges → (∀ e ∈ cycle.edges, OnMetadata poolMetas e) →
      List.Forall₂ SameTokens cycle.edges result.edges ∧
        (Loops cycle → Loops result ∧ result.startToken = cycle.startToken) := by
    intro hmeet hon
    obtain ⟨hsame, hrestart⟩ := realign_of_onMetadata ht hmeet hon h
    refine ⟨hsame, fun hloops => ?_⟩
    rw [hrestart]
    exact hloops.restart hsame
  rcases realign_cases ht h with ⟨edges, hrealigned, hcontig, rfl⟩ | ⟨rfl, hcontig, hmatch⟩
  · have hagrees : ∀ e ∈ edges, Agrees arena poolMetas e ∧ ByteLegs e := by
      intro e' he'
      rcases List.mem_iff_getElem.mp he' with ⟨n, hn, rfl⟩
      have hn' : n < cycle.edges.length := by
        rw [hrealigned.length_eq]
        exact hn
      have hpair := hrealigned.get hn' hn
      exact ⟨hpair.agrees, hpair.byteLegs (hbytes _ (List.getElem_mem hn'))⟩
    refine ⟨hrealigned.imp fun _ _ hpair => ⟨hpair.same, hpair.untouched⟩, hcontig, startKept_restart,
      Or.inl fun e he => (hagrees e he).1, hkept, ?_⟩
    intro hnodup
    have halign : alignHops arena poolMetas (restart cycle edges).edges = some edges :=
      alignHops_self hnodup hagrees
    have hok : hopOk arena edges = true := (hopOk_iff ht).mpr hcontig
    simp only [realignUniCycleFromPoolMeta, halign, Option.bind_eq_bind, Option.bind_some, hok,
      if_true, restart_restart]
  · refine ⟨List.forall₂_same.mpr fun e _ => ⟨.refl e, .refl e⟩, hcontig, Or.inl rfl, Or.inr ⟨rfl, hmatch⟩,
      hkept, ?_⟩
    intro _
    exact h

end Agree

/-! ### Routes over two pairs -/

/-- An arena with tokens and no pools. -/
def tokenArena (tokens : List Address) : StateArena where
  inner := { ArenaInner.empty with
    tokens := tokens
    tokenDecimals := tokens.map fun _ => 18
    addressToToken := fun a => tokens.findIdx? (· = a) }
  hotOverlay := []
  hotRevisions := []

lemma tablesOk_tokenArena {tokens : List Address} (h : tokens.Nodup) :
    (tokenArena tokens).inner.TablesOk where
  decimals := List.length_map _
  pools := rfl
  token := inverseIndex_findIdx? h
  pool := inverseIndex_nil

def pairMeta (index : PoolIndex) (token0 token1 : TokenIndex) : PoolMeta :=
  ⟨index, .uniswapV2, [token0, token1], 30, none, none⟩

/-- A hop from the first to the second leg of a pair. -/
def pairHop (pool : PoolIndex) (tokenIn tokenOut : TokenIndex) : Edge :=
  ⟨pool, tokenIn, tokenOut, 0, 1, .uniswapV2, 30, true⟩

def pairRoute (start : TokenIndex) (hops : List Edge) : FoundCycle := ⟨start, hops, 2, 0, 60, 0, 0⟩

/-- There and back over two pairs of the same tokens; the legs of the way back are swapped. -/
theorem realign_keeps_route_roundTrip :
    ∃ result,
      realignUniCycleFromPoolMeta (tokenArena [1, 2]) [pairMeta 0 0 1, pairMeta 1 0 1]
          (pairRoute 0 [pairHop 0 0 1, pairHop 1 1 0]) = some result ∧
        result.edges = [pairHop 0 0 1, ⟨1, 1, 0, 1, 0, .uniswapV2, 30, false⟩] ∧
        Contiguous result.edges ∧ Loops result ∧
        realignUniCycleFromPoolMeta (tokenArena [1, 2]) [pairMeta 0 0 1, pairMeta 1 0 1] result =
          some result := by
  have h : realignUniCycleFromPoolMeta (tokenArena [1, 2]) [pairMeta 0 0 1, pairMeta 1 0 1]
      (pairRoute 0 [pairHop 0 0 1, pairHop 1 1 0]) =
        some (pairRoute 0 [pairHop 0 0 1, ⟨1, 1, 0, 1, 0, .uniswapV2, 30, false⟩]) := by
    decide
  have hbytes : ∀ e ∈ (pairRoute 0 [pairHop 0 0 1, pairHop 1 1 0]).edges, ByteLegs e := by
    simp [pairRoute, pairHop, ByteLegs]
  rcases realign_keeps_route (tablesOk_tokenArena (by decide)) hbytes h with
    ⟨-, hcontig, -, -, hkept, hagain⟩
  have hmeet : Contiguous (pairRoute 0 [pairHop 0 0 1, pairHop 1 1 0]).edges := by
    simp [Contiguous, pairRoute, pairHop]
  have hon : ∀ e ∈ (pairRoute 0 [pairHop 0 0 1, pairHop 1 1 0]).edges,
      OnMetadata [pairMeta 0 0 1, pairMeta 1 0 1] e := by
    intro e he
    simp only [pairRoute, List.mem_cons, List.not_mem_nil, or_false] at he
    rcases he with rfl | rfl <;> (rintro row hrow - -; cases hrow; simp [pairMeta, pairHop])
  exact ⟨_, h, rfl, hcontig, ((hkept hmeet hon).2 ⟨rfl, rfl⟩).1, hagain (by simp [pairMeta])⟩

/-- A closed route through a token that left both pools: it comes back over other tokens, with another
start token, and open. -/
theorem realign_moves_and_opens :
    Contiguous (pairRoute 3 [pairHop 0 3 1, pairHop 1 1 3]).edges ∧
      Loops (pairRoute 3 [pairHop 0 3 1, pairHop 1 1 3]) ∧
      ∃ result,
        realignUniCycleFromPoolMeta (tokenArena [1, 2, 3, 4]) [pairMeta 0 0 1, pairMeta 1 1 2]
            (pairRoute 3 [pairHop 0 3 1, pairHop 1 1 3]) = some result ∧
          result.startToken = 0 ∧ result.edges = [pairHop 0 0 1, pairHop 1 1 2] ∧
          ¬ Loops result := by
  refine ⟨by simp [Contiguous, pairRoute, pairHop], ⟨rfl, rfl⟩,
    pairRoute 0 [pairHop 0 0 1, pairHop 1 1 2], by decide, rfl, rfl, ?_⟩
  rintro ⟨-, hlast⟩
  exact absurd hlast (by decide)

end PolygonArb
