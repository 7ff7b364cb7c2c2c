import Mathlib.Data.Finset.Insert
import Mathlib.Logic.Function.Basic
import PolygonArb.Lib.Transition
import PolygonArb.Services.FlashPlan

/-!
# Refreshing the flash liquidity

`FlashLiquidityCache` of `flash_liquidity.rs` as a machine.  A refresh asks the chain, copies the pins,
asks the chain again and publishes; `mark_aave_inactive` pins a token and publishes it without Aave.
Every label of `FlashCache.step` is one lock acquisition, one `rcu` or one answer of the chain, so a run
is an interleaving of any number of refreshes and marks.  No label takes a pin back: the code never
does.

A refresh that has copied the pins before a mark publishes the reserve after it
(`refresh_resurrects_aave`).  `marked_stays_inactive` says that this is the only way a marked token
gets its Aave liquidity back.
-/

namespace PolygonArb

open Word Transition

/-! ## What the chain answers -/

structure AaveReserve where
  configuration : U256
  aTokenAddress : Address

/-- The decoders of the return data `β`: the generated bindings of `balanceOf` and `getReserveData`. -/
structure FlashDecoders (β : Type) where
  balanceOf : β → Option U256
  reserveData : β → Option AaveReserve

inductive AaveReserveStatus
  | viable
  | rpcError
  | noAToken
  | inactive
  | paused
  | flashDisabled
  deriving DecidableEq

def aaveCfgActiveBit : ℕ := 56

def aaveCfgPausedBit : ℕ := 60

def aaveCfgFlashBit : ℕ := 63

def aaveCfgBitSet (configuration : U256) (bit : ℕ) : Bool :=
  (configuration >>> bit) &&& 1#256 ≠ 0

def reserveStatusFromConfig (configuration : U256) (hasAToken : Bool) : AaveReserveStatus :=
  if hasAToken = false then .noAToken
  else if aaveCfgBitSet configuration aaveCfgActiveBit = false then .inactive
  else if aaveCfgBitSet configuration aaveCfgPausedBit then .paused
  else if aaveCfgBitSet configuration aaveCfgFlashBit = false then .flashDisabled
  else .viable

/-- Without a reserve list every token is asked for. -/
def aaveReserveNeedsFetch (aaveReserves : Option (Finset Address)) (token : Address) : Bool :=
  match aaveReserves with
  | none => true
  | some reserves => token ∈ reserves

structure CachedLiquidity where
  snapshot : TokenFlashLiquidity
  fetchedAt : ℕ

/-! ## What a refresh computes -/

section Fetch

variable {β : Type} (decode : FlashDecoders β)

/-- A call that failed, or whose answer does not decode, counts as an empty balance. -/
def decodeBalance (answer : Option (Option β)) : U256 :=
  (answer.join.bind decode.balanceOf).getD 0

/-- The reserve behind one answer, if a loan can be had from it. -/
def viableReserve (answer : Option (Option β)) : Option Address :=
  match answer.join.bind decode.reserveData with
  | none => none
  | some reserve =>
      if reserveStatusFromConfig reserve.configuration (reserve.aTokenAddress ≠ 0) = .viable then
        some reserve.aTokenAddress
      else none

/-- The viable reserves of the tokens.  `cursor` is the next `getReserveData` answer: they come after
the balances, and only for the tokens that were asked for. -/
def selectReserves (pinned : Finset Address) (aaveReserves : Option (Finset Address))
    (results : List (Option β)) : ℕ → List Address → List (Option Address)
  | _, [] => []
  | cursor, token :: tokens =>
      if aaveReserveNeedsFetch aaveReserves token then
        (if token ∈ pinned then none else viableReserve decode results[cursor]?) ::
          selectReserves pinned aaveReserves results (cursor + 1) tokens
      else none :: selectReserves pinned aaveReserves results cursor tokens

/-- The entry of one token: its vault balance and, when its reserve is listed, the reserve's cash. -/
def fetchedEntry (balancer cash : U256) (listed : Bool) (now : ℕ) : CachedLiquidity where
  snapshot :=
    { balancer := balancer
      aave := if listed then cash else 0
      aaveListed := listed
      dodo := 0
      listed := by
        intro h
        by_contra hlisted
        exact h (if_neg hlisted) }
  fetchedAt := now

/-- The entries to publish.  `i` and `aaveIndex` are the next answers of the two batches. -/
def buildUpdates (pinned : Finset Address) (results aaveResults : List (Option β)) (now : ℕ) :
    ℕ → ℕ → List (Address × Option Address) → List (Address × CachedLiquidity)
  | _, _, [] => []
  | i, aaveIndex, (token, reserve) :: rest =>
      let listed := decide (token ∉ pinned) && reserve.isSome
      (token,
          fetchedEntry (decodeBalance decode results[i]?) (decodeBalance decode aaveResults[aaveIndex]?)
            listed now) ::
        buildUpdates pinned results aaveResults now (i + 1)
          (if listed then aaveIndex + 1 else aaveIndex) rest

end Fetch

/-! ## The machine -/

/-- Where a refresh stands. -/
inductive RefreshPhase (β : Type)
  /-- The balances and the reserve data are awaited. -/
  | fetching
  /-- The pins are copied and the reserves listed; the reserves' cash is awaited. -/
  | listed (pinned : Finset Address) (results : List (Option β)) (reserves : List (Option Address))

structure Refresh (β : Type) where
  toFetch : List Address
  aaveReserves : Option (Finset Address)
  now : ℕ
  phase : RefreshPhase β

/-- The cache, the refreshes and the marks.  `marking` holds the marks that have pinned their token and
not published yet, `marked` the tokens whose mark is complete. -/
structure FlashCache (β : Type) where
  pins : Finset Address
  entries : Address → Option CachedLiquidity
  generation : BitVec 64
  refreshes : ℕ → Option (Refresh β)
  marking : ℕ → Option Address
  marked : Finset Address

inductive FlashEvent (β : Type)
  /-- `mark_aave_inactive` inserts the pin. -/
  | pin (task : ℕ) (token : Address)
  /-- `mark_aave_inactive` publishes the token without Aave. -/
  | publishMark (task now : ℕ)
  /-- `fetch_and_publish` starts; the reserve list comes from the cache or from the chain. -/
  | begin (run : ℕ) (toFetch : List Address) (aaveReserves : Option (Finset Address)) (now : ℕ)
  /-- The first batch is answered and the pins are read. -/
  | readPins (run : ℕ) (results : List (Option β))
  /-- The second batch is answered, or there is none, and the entries are published. -/
  | publish (run : ℕ) (aaveResults : List (Option β))
  /-- A batch fails. -/
  | fail (run : ℕ)
  /-- `invalidate_batch` drops entries. -/
  | invalidate (tokens : List Address)

namespace FlashCache

variable {β : Type}

/-- `FlashLiquidityCache::new`. -/
def fresh : FlashCache β := ⟨∅, fun _ => none, 0, fun _ => none, fun _ => none, ∅⟩

def saturatingNext (generation : BitVec 64) : BitVec 64 :=
  if generation = BitVec.allOnes 64 then generation else generation + 1

def extend (entries : Address → Option CachedLiquidity) (updates : List (Address × CachedLiquidity)) :
    Address → Option CachedLiquidity :=
  updates.foldl (fun entries update => Function.update entries update.1 (some update.2)) entries

def publishUpdates (cache : FlashCache β) (updates : List (Address × CachedLiquidity)) : FlashCache β :=
  if updates.isEmpty then cache
  else
    { cache with
      entries := extend cache.entries updates
      generation := saturatingNext cache.generation }

def invalidateBatch (cache : FlashCache β) (tokens : List Address) : FlashCache β :=
  if tokens.all fun token => (cache.entries token).isNone then cache
  else
    { cache with
      entries := fun token => if token ∈ tokens then none else cache.entries token
      generation := saturatingNext cache.generation }

section Frame

variable (cache : FlashCache β) (updates : List (Address × CachedLiquidity)) (tokens : List Address)

@[simp] lemma pins_publishUpdates : (cache.publishUpdates updates).pins = cache.pins := by
  rw [publishUpdates]
  split_ifs <;> rfl

@[simp] lemma marking_publishUpdates : (cache.publishUpdates updates).marking = cache.marking := by
  rw [publishUpdates]
  split_ifs <;> rfl

@[simp] lemma marked_publishUpdates : (cache.publishUpdates updates).marked = cache.marked := by
  rw [publishUpdates]
  split_ifs <;> rfl

@[simp] lemma pins_invalidateBatch : (cache.invalidateBatch tokens).pins = cache.pins := by
  rw [invalidateBatch]
  split_ifs <;> rfl

@[simp] lemma marking_invalidateBatch : (cache.invalidateBatch tokens).marking = cache.marking := by
  rw [invalidateBatch]
  split_ifs <;> rfl

@[simp] lemma marked_invalidateBatch : (cache.invalidateBatch tokens).marked = cache.marked := by
  rw [invalidateBatch]
  split_ifs <;> rfl

end Frame

/-- What a mark publishes: the entry as it was, without Aave. -/
def inactiveEntry (prior : Option CachedLiquidity) (now : ℕ) : CachedLiquidity where
  snapshot :=
    { balancer := (prior.map fun e => e.snapshot.balancer).getD 0
      aave := 0
      aaveListed := false
      dodo := (prior.map fun e => e.snapshot.dodo).getD 0
      listed := listed_of_empty false }
  fetchedAt := now

/-- What a reader sees of a token: its entry while it is fresh, and nothing otherwise. -/
def tokenLiquidity (cache : FlashCache β) (token : Address) (ttl now : ℕ) : TokenFlashLiquidity :=
  match (cache.entries token).filter fun e => now - e.fetchedAt < ttl with
  | some e => e.snapshot
  | none => ⟨0, 0, false, 0, listed_of_empty false⟩

def step (decode : FlashDecoders β) (cache : FlashCache β) : FlashEvent β → Option (FlashCache β)
  | .pin task token =>
      if (cache.marking task).isSome then none
      else
        some
          { cache with
            pins := insert token cache.pins
            marking := Function.update cache.marking task (some token) }
  | .publishMark task now =>
      (cache.marking task).map fun token =>
        { cache with
          entries :=
            Function.update cache.entries token (some (inactiveEntry (cache.entries token) now))
          generation := saturatingNext cache.generation
          marking := Function.update cache.marking task none
          marked := insert token cache.marked }
  | .begin run toFetch aaveReserves now =>
      if (cache.refreshes run).isSome ∨ toFetch = [] then none
      else
        some
          { cache with
            refreshes :=
              Function.update cache.refreshes run (some ⟨toFetch, aaveReserves, now, .fetching⟩) }
  | .readPins run results =>
      match cache.refreshes run with
      | some ⟨toFetch, aaveReserves, now, .fetching⟩ =>
          let reserves :=
            selectReserves decode cache.pins aaveReserves results toFetch.length toFetch
          some
            { cache with
              refreshes :=
                Function.update cache.refreshes run
                  (some ⟨toFetch, aaveReserves, now, .listed cache.pins results reserves⟩) }
      | _ => none
  | .publish run aaveResults =>
      match cache.refreshes run with
      | some ⟨toFetch, _, now, .listed pinned results reserves⟩ =>
          let updates :=
            buildUpdates decode pinned results aaveResults now 0 0 (toFetch.zip reserves)
          some
            (publishUpdates { cache with refreshes := Function.update cache.refreshes run none }
              updates)
      | _ => none
  | .fail run =>
      (cache.refreshes run).map fun _ =>
        { cache with refreshes := Function.update cache.refreshes run none }
  | .invalidate tokens => some (cache.invalidateBatch tokens)

/-! ## What a publication can bring back -/

end FlashCache

namespace Refresh

variable {β : Type}

/-- The refresh is going to publish the token with its reserve's cash. -/
def Lists (refresh : Refresh β) (token : Address) : Prop :=
  match refresh.phase with
  | .fetching => False
  | .listed pinned _ reserves =>
      token ∉ pinned ∧ ∃ reserve, (token, some reserve) ∈ refresh.toFetch.zip reserves

end Refresh

namespace FlashCache

variable {β : Type} {decode : FlashDecoders β} {cache cache' : FlashCache β} {token : Address}

/-- Only a listed reserve is published with cash. -/
lemma aave_buildUpdates {pinned : Finset Address} {results aaveResults : List (Option β)} {now : ℕ}
    {entry : CachedLiquidity} {rows : List (Address × Option Address)}
    (hrows : token ∈ pinned ∨ ∀ reserve, (token, some reserve) ∉ rows) :
    ∀ i aaveIndex,
      (token, entry) ∈ buildUpdates decode pinned results aaveResults now i aaveIndex rows →
        entry.snapshot.aave = 0 := by
  induction rows with
  | nil =>
      intro i aaveIndex hmem
      cases hmem
  | cons row rows ih =>
      intro i aaveIndex hmem
      rcases row with ⟨token', reserve⟩
      rcases List.mem_cons.mp hmem with heq | hmem
      · rcases Prod.mk.inj heq with ⟨rfl, rfl⟩
        refine if_neg ?_
        rw [Bool.and_eq_true, decide_eq_true_eq, Option.isSome_iff_exists]
        rintro ⟨hpinned, a, rfl⟩
        rcases hrows with hin | hrows
        · exact hpinned hin
        · exact hrows a List.mem_cons_self
      · refine ih ?_ _ _ hmem
        exact hrows.imp id fun h a ha => h a (List.mem_cons_of_mem _ ha)

lemma update_eq_some {ι α : Type} [DecidableEq ι] {f : ι → Option α} {i j : ι} {v : Option α} {x : α}
    (h : Function.update f i v j = some x) : j = i ∧ v = some x ∨ j ≠ i ∧ f j = some x := by
  by_cases hij : j = i
  · subst hij
    rw [Function.update_self] at h
    exact .inl ⟨rfl, h⟩
  · rw [Function.update_of_ne hij] at h
    exact .inr ⟨hij, h⟩

lemma extend_eq_some {updates : List (Address × CachedLiquidity)} {entry : CachedLiquidity} :
    ∀ {entries : Address → Option CachedLiquidity}, extend entries updates token = some entry →
      (token, entry) ∈ updates ∨ entries token = some entry := by
  induction updates with
  | nil =>
      intro entries h
      exact .inr h
  | cons update updates ih =>
      intro entries h
      rcases update with ⟨token', entry'⟩
      rcases ih h with hmem | hold
      · exact .inl (List.mem_cons_of_mem _ hmem)
      · rcases update_eq_some hold with ⟨rfl, hentry⟩ | ⟨-, hold⟩
        · cases hentry
          exact .inl List.mem_cons_self
        · exact .inr hold

/-! ## Marked tokens -/

/-- What a marked token relies on: its pin, no refresh that is about to publish its reserve, and an
entry without Aave. -/
structure Inactive (cache : FlashCache β) (token : Address) : Prop where
  pinned : token ∈ cache.pins
  unlisted : ∀ run refresh, cache.refreshes run = some refresh → ¬ refresh.Lists token
  published : ∀ entry, cache.entries token = some entry → entry.snapshot.aave = 0

structure Inv (cache : FlashCache β) : Prop where
  marking : ∀ task token, cache.marking task = some token → token ∈ cache.pins
  marked : ∀ token ∈ cache.marked, cache.Inactive token

/-- A mark completes where no refresh has already listed the token's reserve. -/
def Undisturbed (cache : FlashCache β) : FlashEvent β → Prop
  | .publishMark task _ =>
      ∀ token, cache.marking task = some token →
        ∀ run refresh, cache.refreshes run = some refresh → ¬ refresh.Lists token
  | _ => True

lemma inv_fresh : Inv (fresh : FlashCache β) where
  marking := by simp [fresh]
  marked := by simp [fresh]

/-- A refresh that starts, ends or lists its reserves takes nothing from a marked token. -/
lemma Inactive.setRefresh (h : cache.Inactive token) (run : ℕ) {refresh : Option (Refresh β)}
    (hlists : ∀ r, refresh = some r → ¬ r.Lists token) :
    Inactive { cache with refreshes := Function.update cache.refreshes run refresh } token where
  pinned := h.pinned
  published := h.published
  unlisted := by
    intro run' r hr
    rcases update_eq_some hr with ⟨-, hset⟩ | ⟨-, hold⟩
    · exact hlists r hset
    · exact h.unlisted run' r hold

/-- Publishing entries without Aave keeps a marked token inactive. -/
lemma Inactive.publishUpdates (h : cache.Inactive token)
    {updates : List (Address × CachedLiquidity)}
    (hupdates : ∀ entry, (token, entry) ∈ updates → entry.snapshot.aave = 0) :
    (cache.publishUpdates updates).Inactive token := by
  rw [FlashCache.publishUpdates]
  split_ifs
  · exact h
  · refine ⟨h.pinned, h.unlisted, ?_⟩
    intro entry hentry
    rcases extend_eq_some hentry with hmem | hold
    · exact hupdates entry hmem
    · exact h.published entry hold

lemma Inactive.invalidateBatch (h : cache.Inactive token) (tokens : List Address) :
    (cache.invalidateBatch tokens).Inactive token := by
  rw [FlashCache.invalidateBatch]
  split_ifs
  · exact h
  · refine ⟨h.pinned, h.unlisted, ?_⟩
    intro entry hentry
    dsimp only at hentry
    split_ifs at hentry
    exact h.published entry hentry

/-! ## Steps and runs -/

lemma inv_pin {task : ℕ} {pinned : Address} (h : cache.Inv)
    (hstep : cache.step decode (.pin task pinned) = some cache') : cache'.Inv := by
  simp only [step] at hstep
  split_ifs at hstep
  cases hstep
  constructor
  · intro task' token hmarking
    rcases update_eq_some hmarking with ⟨-, htoken⟩ | ⟨-, hold⟩
    · cases htoken
      exact Finset.mem_insert_self _ _
    · exact Finset.mem_insert_of_mem (h.marking task' token hold)
  · intro token hmarked
    have hinactive := h.marked token hmarked
    exact ⟨Finset.mem_insert_of_mem hinactive.pinned, hinactive.unlisted, hinactive.published⟩

/-- The completed mark publishes its token without Aave, and the token is pinned by now. -/
lemma inv_publishMark {task now : ℕ} (h : cache.Inv)
    (hok : cache.Undisturbed (.publishMark task now))
    (hstep : cache.step decode (.publishMark task now) = some cache') : cache'.Inv := by
  rcases Option.map_eq_some_iff.mp hstep with ⟨marked, hmarking, rfl⟩
  constructor
  · intro task' token htoken
    rcases update_eq_some htoken with ⟨-, hnone⟩ | ⟨-, hold⟩
    · cases hnone
    · exact h.marking task' token hold
  · intro token hmem
    refine ⟨?_, ?_, ?_⟩
    · rcases Finset.mem_insert.mp hmem with rfl | hmem
      · exact h.marking task token hmarking
      · exact (h.marked token hmem).pinned
    · rcases Finset.mem_insert.mp hmem with rfl | hmem
      · exact hok token hmarking
      · exact (h.marked token hmem).unlisted
    · intro entry hentry
      rcases update_eq_some hentry with ⟨-, hset⟩ | ⟨hne, hold⟩
      · cases hset
        rfl
      · have hbefore : token ∈ cache.marked := (Finset.mem_insert.mp hmem).resolve_left hne
        exact (h.marked token hbefore).published entry hold

/-- A refresh is only changed in a way that marked tokens do not notice. -/
lemma inv_setRefresh (h : cache.Inv) (run : ℕ) {refresh : Option (Refresh β)}
    (hlists : ∀ token ∈ cache.marked, ∀ r, refresh = some r → ¬ r.Lists token) :
    Inv { cache with refreshes := Function.update cache.refreshes run refresh } where
  marking := h.marking
  marked token hmarked := (h.marked token hmarked).setRefresh run (hlists token hmarked)

/-- The pins are read after every completed mark, so a refresh lists no marked token. -/
lemma inv_readPins {run : ℕ} {results : List (Option β)} (h : cache.Inv)
    (hstep : cache.step decode (.readPins run results) = some cache') : cache'.Inv := by
  simp only [step] at hstep
  split at hstep
  · cases hstep
    refine inv_setRefresh h run ?_
    rintro token hmarked r hr hlists
    cases hr
    exact hlists.1 (h.marked token hmarked).pinned
  · cases hstep

/-- A refresh publishes cash only for a token it lists. -/
lemma inv_publish {run : ℕ} {aaveResults : List (Option β)} (h : cache.Inv)
    (hstep : cache.step decode (.publish run aaveResults) = some cache') : cache'.Inv := by
  simp only [step] at hstep
  split at hstep
  · rename_i toFetch aaveReserves now pinned results reserves hrefresh
    cases hstep
    refine ⟨by simpa using h.marking, ?_⟩
    intro token hmarked
    rw [marked_publishUpdates] at hmarked
    have hinactive := h.marked token hmarked
    refine Inactive.publishUpdates (hinactive.setRefresh run (by simp)) ?_
    intro entry hentry
    refine aave_buildUpdates ?_ 0 0 hentry
    have hlists := hinactive.unlisted run _ hrefresh
    rw [Refresh.Lists, not_and_or, not_not] at hlists
    exact hlists.imp id fun hrows reserve hmem => hrows ⟨reserve, hmem⟩
  · cases hstep

lemma inv_step (event : FlashEvent β) (h : cache.Inv) (hok : cache.Undisturbed event)
    (hstep : cache.step decode event = some cache') : cache'.Inv := by
  cases event with
  | pin task token => exact inv_pin h hstep
  | publishMark task now => exact inv_publishMark h hok hstep
  | begin run toFetch aaveReserves now =>
      simp only [step] at hstep
      split_ifs at hstep
      cases hstep
      refine inv_setRefresh h run ?_
      rintro token - r hr hlists
      cases hr
      exact hlists
  | readPins run results => exact inv_readPins h hstep
  | publish run aaveResults => exact inv_publish h hstep
  | fail run =>
      rcases Option.map_eq_some_iff.mp hstep with ⟨r, -, rfl⟩
      exact inv_setRefresh h run (by simp)
  | invalidate tokens =>
      cases hstep
      refine ⟨by simpa using h.marking, ?_⟩
      intro token hmarked
      rw [marked_invalidateBatch] at hmarked
      exact (h.marked token hmarked).invalidateBatch tokens

/-- Once a token's mark is complete, no reader sees Aave liquidity for it, in any run in which marks
complete only where no refresh has already listed the token's reserve. -/
theorem marked_stays_inactive
    (hrun : Reachable (step decode) Undisturbed (· = fresh) cache) (hmarked : token ∈ cache.marked)
    (ttl now : ℕ) : (cache.tokenLiquidity token ttl now).aave = 0 := by
  have hinv : cache.Inv := by
    refine hrun.inv Inv ?_ ?_
    · rintro _ rfl
      exact inv_fresh
    · intro s event s' h hok hstep
      exact inv_step event h hok hstep
  rw [tokenLiquidity]
  split
  · rename_i entry hentry
    exact (hinv.marked token hmarked).published entry (Option.filter_eq_some_iff.mp hentry).1
  · rfl

/-! ### A mark during a refresh -/

/-- Return data as its words: a balance is the first, the reserve data has fifteen. -/
def wordDecoders : FlashDecoders (List U256) where
  balanceOf words := words.head?
  reserveData words :=
    if words.length < 15 then none
    else some ⟨(words[0]?).getD 0, ((words[8]?).getD 0).setWidth 160⟩

/-- The first batch for one token: five in the vault, and a reserve that is active and lends. -/
def viableAnswers : List (Option (List U256)) :=
  [some [5#256], some ([0x8100000000000000#256, 0, 0, 0, 0, 0, 0, 0, 0xbeef0000#256] ++
    List.replicate 6 0)]

/-- The mark completes before the pins are read. -/
theorem marked_stays_inactive_beforeRead :
    ∃ cache : FlashCache (List U256), play (step wordDecoders) fresh
        [.begin 0 [0xa0000#160] none 0, .pin 0 0xa0000#160, .publishMark 0 1,
          .readPins 0 viableAnswers, .publish 0 [some [5000#256]]] = some cache ∧
      0xa0000#160 ∈ cache.marked ∧ (cache.tokenLiquidity 0xa0000#160 30 2).aave = 0 := by
  refine ⟨_, rfl, Finset.mem_insert_self _ _, ?_⟩
  have hstart : Reachable (step wordDecoders) Undisturbed (· = fresh) fresh := .init rfl
  have hbegin := hstart.step (show Undisturbed _ (.begin 0 [0xa0000#160] none 0) from trivial) rfl
  have hpin := hbegin.step (show Undisturbed _ (.pin 0 0xa0000#160) from trivial) rfl
  have hmark := hpin.step (show Undisturbed _ (.publishMark 0 1) by
    intro token _ run refresh hrefresh hlists
    rcases update_eq_some hrefresh with ⟨-, hset⟩ | ⟨-, hold⟩
    · cases hset
      exact hlists
    · cases hold) rfl
  have hread := hmark.step (show Undisturbed _ (.readPins 0 viableAnswers) from trivial) rfl
  have hpublish := hread.step (show Undisturbed _ (.publish 0 [some [5000#256]]) from trivial) rfl
  exact marked_stays_inactive hpublish (Finset.mem_insert_self _ _) 30 2

/-- The mark completes between the pin read and the publication, which brings the reserve back. -/
theorem refresh_resurrects_aave :
    ∃ cache : FlashCache (List U256), play (step wordDecoders) fresh
        [.begin 0 [0xa0000#160] none 0, .readPins 0 viableAnswers, .pin 0 0xa0000#160,
          .publishMark 0 1, .publish 0 [some [5000#256]]] = some cache ∧
      0xa0000#160 ∈ cache.marked ∧ (cache.tokenLiquidity 0xa0000#160 30 2).aave = 5000#256 :=
  ⟨_, rfl, Finset.mem_insert_self _ _, rfl⟩

end FlashCache

end PolygonArb
