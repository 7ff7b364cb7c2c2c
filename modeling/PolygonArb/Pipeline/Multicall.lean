import PolygonArb.Core.Types
import PolygonArb.Lib.Bisection
import PolygonArb.Lib.ByteFormat
import PolygonArb.Lib.Chunks

/-!
# Resilient multicall

`pipeline/multicall.rs`: a list of calls is sent in chunks, each chunk in its own task.  A chunk that the
node refuses is bisected (`Lib/Bisection.lean`) until single calls are refused alone; a rate limit or an
unusable endpoint is not bisected and fails the whole.

The node is a function: its reply to one attempt at one slice of one chunk.  No slice is attempted again
once it was answered or cut, so that leaves every reply open.
-/

namespace PolygonArb

open ByteFormat Bisection Chunks

structure MulticallItem where
  target : Address
  data : List Byte
  deriving DecidableEq

/-- One call of `aggregate3`. -/
structure Call3 where
  target : Address
  allowFailure : Bool
  callData : List Byte
  deriving DecidableEq

/-- One result of `aggregate3`. -/
structure Call3Result where
  success : Bool
  returnData : List Byte
  deriving DecidableEq

/-- An `aggregate3` call, at a block if one is given. -/
structure AggregateRequest where
  block : Option ℕ
  calls : List Call3
  deriving DecidableEq

/-- The replies to the attempts at one slice, or the text of the error. -/
abbrev SliceNode := ℕ → AggregateRequest → Except String (List Call3Result)

/-! ## Errors -/

/-- `ic`, and the windows of bytes compared without regard to ASCII case. -/
def mentions (message pattern : String) : Bool :=
  decide (pattern.toList.map Char.toLower <:+: message.toList.map Char.toLower)

def messageContains (message pattern : String) : Bool := decide (pattern.toList <:+: message.toList)

def isRpcRateLimited (message : String) : Bool :=
  messageContains message "429" || messageContains message "error code 15" || mentions message "rate limit"
    || mentions message "usage limit" || mentions message "too many request"

def isRetryableRpcError (message : String) : Bool :=
  if isRpcRateLimited message then false
  else ["unknown block", "header not found"].any (mentions message)

def isNonBisectableRpcError (message : String) : Bool :=
  if isRpcRateLimited message then true
  else
    [ "error code -32601", "method eth_call does not exist", "http error 401", "api key disabled",
      "invalid account id" ].any (mentions message)

/-! ## One slice -/

def buildCalls (items : List MulticallItem) : List Call3 :=
  items.map fun item => ⟨item.target, true, item.data⟩

/-- `ensure_result_count`. -/
def resultCountMismatch (expected actual : ℕ) : String :=
  "multicall result count mismatch: expected " ++ toString expected ++ ", got " ++ toString actual

/-- The loop over the attempts: an error that may pass is retried four times. -/
def aggregateLoop (node : SliceNode) (request : AggregateRequest) (count : ℕ) :
    (left attempt : ℕ) → Except String (List Call3Result)
  | left, attempt =>
      match node attempt request with
      | .ok results =>
          if results.length = count then .ok results
          else .error (resultCountMismatch count results.length)
      | .error e =>
          match left with
          | 0 => .error e
          | left + 1 =>
              if isRetryableRpcError e then aggregateLoop node request count left (attempt + 1)
              else .error e

def aggregate (node : SliceNode) (block : Option ℕ) (items : List MulticallItem) :
    Except String (List Call3Result) :=
  aggregateLoop node ⟨block, buildCalls items⟩ items.length 4 0

/-- A call that failed or returned nothing has no answer. -/
def callAnswer (result : Call3Result) : Option (List Byte) :=
  if result.success && !result.returnData.isEmpty then some result.returnData else none

def executeMulticallChunk (node : SliceNode) (block : Option ℕ) (items : List MulticallItem) :
    Except String (List (Option (List Byte))) :=
  if items = [] then .ok [] else (aggregate node block items).map fun results => results.map callAnswer

/-! ## One chunk -/

/-- The replies to the slices of one chunk, by their offsets in it. -/
abbrev ChunkNode := ℕ → ℕ → SliceNode

/-- `&items[start..end]`. -/
def slice (items : List MulticallItem) (lo hi : ℕ) : List MulticallItem := (items.take hi).drop lo

section Chunk

variable (node : ChunkNode) (block : Option ℕ) (items : List MulticallItem)

def sliceOutcome (lo hi : ℕ) : Outcome String (Option (List Byte)) :=
  match executeMulticallChunk (node lo hi) block (slice items lo hi) with
  | .ok results => .answered results
  | .error e => if isNonBisectableRpcError e then .fatal e else .failed

def executeMulticallChunkResilient : Except String (List (Option (List Byte))) :=
  if items = [] then .ok []
  else
    drain (sliceOutcome node block items) [(0, items.length)] (List.replicate items.length none)

end Chunk

/-! ## All chunks -/

/-- How a chunk task ends. -/
inductive TaskEnd
  | ran
  | semaphoreClosed
  | panicked
  deriving DecidableEq

/-- The order in which the tasks of the chunks are joined: each once. -/
structure CompletionOrder (chunks : ℕ) where
  order : List ℕ
  perm : order.Perm (List.range chunks)

section Chunked

variable (node : ℕ → ChunkNode) (block : Option ℕ) (items : List MulticallItem) (maxChunk : ℕ)
  (finish : ℕ → TaskEnd)

def chunkItems (chunk : ℕ) : List MulticallItem :=
  slice items (chunk * maxChunk) (min (chunk * maxChunk + maxChunk) items.length)

/-- What a chunk task hands back when it is joined. -/
def joinChunk (chunk : ℕ) : Except String (ℕ × List (Option (List Byte))) :=
  match finish chunk with
  | .panicked => .error "chunk task panicked"
  | .semaphoreClosed => .error "chunk multicall failed: multicall semaphore closed"
  | .ran =>
      match executeMulticallChunkResilient (node chunk) block (chunkItems items maxChunk chunk) with
      | .ok results => .ok (chunk, results)
      | .error e => .error ("chunk multicall failed: " ++ e)

def executeMulticallAtChunked (maxChunk : ℕ) (order : List ℕ) :
    Except String (List (Option (List Byte))) :=
  if items = [] then .ok []
  else
    let maxChunk := max maxChunk 1
    if items.length ≤ maxChunk then executeMulticallChunkResilient (node 0) block items
    else do
      let numChunks := chunkCount items.length maxChunk
      let indexed ← order.mapM (joinChunk node block items maxChunk finish)
      if indexed.length ≠ numChunks then
        .error ("multicall chunked join incomplete: expected " ++ toString numChunks ++ " chunks, got "
          ++ toString indexed.length)
      else .ok ((indexed.mergeSort fun a b => a.1 ≤ b.1).flatMap Prod.snd)

end Chunked

/-! ## Replies -/

section Slices

variable {node : SliceNode} {block : Option ℕ} {items : List MulticallItem} {lo hi k : ℕ}

lemma length_slice (h : hi ≤ items.length) : (slice items lo hi).length = hi - lo := by
  rw [slice, List.length_drop, List.length_take, Nat.min_eq_left h]

lemma getElem?_slice (hk : lo + k < hi) : (slice items lo hi)[k]? = items[lo + k]? := by
  rw [slice, List.getElem?_drop, List.getElem?_take, if_pos hk]

lemma slice_ne_nil (hlt : lo < hi) (h : hi ≤ items.length) : slice items lo hi ≠ [] := by
  have hlen : (slice items lo hi).length = hi - lo := length_slice h
  intro hnil
  rw [hnil, List.length_nil] at hlen
  omega

/-- A slice that is answered has a result for every call. -/
lemma length_of_aggregateLoop {request : AggregateRequest} {count : ℕ} {results : List Call3Result} :
    ∀ {left attempt : ℕ}, aggregateLoop node request count left attempt = .ok results →
      results.length = count := by
  intro left
  induction left with
  | zero =>
      intro attempt h
      rw [aggregateLoop] at h
      split at h
      · split_ifs at h with hcount
        cases h
        exact hcount
      · cases h
  | succ left ih =>
      intro attempt h
      rw [aggregateLoop] at h
      split at h
      · split_ifs at h with hcount
        cases h
        exact hcount
      · dsimp only at h
        split_ifs at h
        exact ih h

end Slices

section ChunkReplies

variable {node : ChunkNode} {block : Option ℕ} {items : List MulticallItem} {lo hi j : ℕ}

/-- What comes back for a slice of a chunk. -/
def replyFor (node : ChunkNode) (block : Option ℕ) (items : List MulticallItem) (lo hi : ℕ) :
    Except String (List Call3Result) :=
  aggregate (node lo hi) block (slice items lo hi)

lemma executeMulticallChunk_slice (hlt : lo < hi) (hhi : hi ≤ items.length) :
    executeMulticallChunk (node lo hi) block (slice items lo hi) =
      (replyFor node block items lo hi).map fun results => results.map callAnswer :=
  if_neg (slice_ne_nil hlt hhi)

lemma replyFor_of_answered {rows : List (Option (List Byte))} (hlt : lo < hi) (hhi : hi ≤ items.length)
    (h : sliceOutcome node block items lo hi = .answered rows) :
    ∃ results, replyFor node block items lo hi = .ok results ∧ rows = results.map callAnswer ∧
      results.length = hi - lo := by
  rw [sliceOutcome, executeMulticallChunk_slice hlt hhi] at h
  cases hreply : replyFor node block items lo hi with
  | error e =>
      rw [hreply] at h
      dsimp only [Except.map] at h
      split_ifs at h
  | ok results =>
      rw [hreply] at h
      cases h
      have hlen : results.length = (slice items lo hi).length := length_of_aggregateLoop hreply
      exact ⟨results, rfl, rfl, hlen.trans (length_slice hhi)⟩

lemma replyFor_of_error (hlt : lo < hi) (hhi : hi ≤ items.length) :
    (∀ e, sliceOutcome node block items lo hi = .fatal e →
      replyFor node block items lo hi = .error e ∧ isNonBisectableRpcError e = true) ∧
      (sliceOutcome node block items lo hi = .failed →
        ∃ e, replyFor node block items lo hi = .error e ∧ isNonBisectableRpcError e = false) := by
  rw [sliceOutcome, executeMulticallChunk_slice hlt hhi]
  cases hreply : replyFor node block items lo hi with
  | ok results =>
      refine ⟨?_, ?_⟩
      · rintro e ⟨⟩
      · rintro ⟨⟩
  | error e =>
      dsimp only [Except.map]
      split_ifs with hfatal
      · refine ⟨?_, ?_⟩
        · rintro e' ⟨⟩
          exact ⟨rfl, hfatal⟩
        · rintro ⟨⟩
      · refine ⟨?_, ?_⟩
        · rintro e' ⟨⟩
        · exact fun _ => ⟨e, rfl, Bool.eq_false_of_not_eq_true hfatal⟩

/-- A slice of a chunk that is attempted. -/
def AttemptedIn (node : ChunkNode) (block : Option ℕ) (items : List MulticallItem) : ℕ → ℕ → Prop :=
  Attempted (sliceOutcome node block items) items.length

lemma AttemptedIn.bounds (h : AttemptedIn node block items lo hi) (hne : items ≠ []) :
    lo < hi ∧ hi ≤ items.length := by
  have hbounds := Piece.bounds h (List.length_pos_of_ne_nil hne)
  exact hbounds.2

/-- An entry of a chunk is the answer of an attempted slice, or its call failed alone. -/
def SettledIn (node : ChunkNode) (block : Option ℕ) (items : List MulticallItem) (j : ℕ)
    (v : Option (List Byte)) : Prop :=
  ∃ lo hi, AttemptedIn node block items lo hi ∧ lo ≤ j ∧ j < hi ∧
    ((∃ results r, replyFor node block items lo hi = .ok results ∧ results[j - lo]? = some r ∧
      v = callAnswer r) ∨
      hi = lo + 1 ∧ v = none ∧ ∃ e, replyFor node block items lo hi = .error e ∧
        isNonBisectableRpcError e = false)

lemma executeMulticallChunkResilient_correct :
    (∀ out, executeMulticallChunkResilient node block items = .ok out → out.length = items.length ∧
      ∀ j < items.length, ∃ v, out[j]? = some v ∧ SettledIn node block items j v) ∧
      ∀ e, executeMulticallChunkResilient node block items = .error e →
        ∃ lo hi, AttemptedIn node block items lo hi ∧ replyFor node block items lo hi = .error e ∧
          isNonBisectableRpcError e = true := by
  by_cases hne : items = []
  · subst hne
    refine ⟨?_, ?_⟩
    · rintro out ⟨⟩
      exact ⟨rfl, fun j hj => absurd hj (Nat.not_lt_zero j)⟩
    · rintro e ⟨⟩
  rw [executeMulticallChunkResilient, if_neg hne]
  have hrows : ∀ a b rows, AttemptedIn node block items a b →
      sliceOutcome node block items a b = .answered rows → rows.length = b - a := by
    intro a b rows hpiece hanswered
    rcases hpiece.bounds hne with ⟨hlt, hhi⟩
    rcases replyFor_of_answered hlt hhi hanswered with ⟨results, -, rfl, hlen⟩
    rw [List.length_map, hlen]
  rcases settled_of_drain (List.length_pos_of_ne_nil hne) hrows with ⟨hok, herror⟩
  refine ⟨fun out hout => ⟨(hok out hout).1, fun j hj => ?_⟩, fun e he => ?_⟩
  · rcases (hok out hout).2 j hj with ⟨v, hv, lo, hi, hpiece, hlo, hhi, hsettled⟩
    refine ⟨v, hv, lo, hi, hpiece, hlo, hhi, ?_⟩
    rcases AttemptedIn.bounds hpiece hne with ⟨hlt, hle⟩
    rcases hsettled with ⟨rows, hanswered, hrow⟩ | ⟨hfailed, halone, hblank⟩
    · rcases replyFor_of_answered hlt hle hanswered with ⟨results, hreply, rfl, -⟩
      rw [List.getElem?_map, Option.map_eq_some_iff] at hrow
      rcases hrow with ⟨r, hr, hanswer⟩
      exact Or.inl ⟨results, r, hreply, hr, hanswer.symm⟩
    · exact Or.inr ⟨halone, hblank, (replyFor_of_error hlt hle).2 hfailed⟩
  · rcases herror e he with ⟨lo, hi, hpiece, hfatal⟩
    rcases AttemptedIn.bounds hpiece hne with ⟨hlt, hle⟩
    exact ⟨lo, hi, hpiece, (replyFor_of_error hlt hle).1 e hfatal⟩

/-- Two attempted slices of a chunk that are answered and share a call are one. -/
lemma answered_slice_unique {lo' hi' : ℕ} {results results' : List Call3Result}
    (h : AttemptedIn node block items lo hi) (h' : AttemptedIn node block items lo' hi')
    (hreply : replyFor node block items lo hi = .ok results)
    (hreply' : replyFor node block items lo' hi' = .ok results') (hj : lo ≤ j ∧ j < hi)
    (hj' : lo' ≤ j ∧ j < hi') : lo = lo' ∧ hi = hi' := by
  by_cases hne : items = []
  · subst hne
    cases h with
    | whole =>
        rw [List.length_nil] at hj
        omega
    | left _ hlong => simp at hlong
    | right _ hlong => simp at hlong
  · have hnot : ∀ {a b results}, AttemptedIn node block items a b →
        replyFor node block items a b = .ok results → ¬ sliceOutcome node block items a b = .failed := by
      intro a b results hpiece hok hfailed
      rcases hpiece.bounds hne with ⟨hlt, hle⟩
      rcases (replyFor_of_error hlt hle).2 hfailed with ⟨e, herror, -⟩
      rw [hok] at herror
      cases herror
    exact Piece.eq_of_not_split (List.length_pos_of_ne_nil hne) h h' (hnot h hreply) (hnot h' hreply') hj
      hj'

/-- Replies to slices that are not attempted make no difference. -/
lemma executeMulticallChunkResilient_congr {node' : ChunkNode}
    (h : ∀ lo hi, AttemptedIn node block items lo hi → node' lo hi = node lo hi) :
    executeMulticallChunkResilient node' block items = executeMulticallChunkResilient node block items := by
  rw [executeMulticallChunkResilient, executeMulticallChunkResilient]
  split_ifs
  · rfl
  · refine drain_congr fun a b hpiece => ?_
    rw [sliceOutcome, sliceOutcome, h a b hpiece]

end ChunkReplies

/-! ## All replies -/

section Run

variable (node : ℕ → ChunkNode) (block : Option ℕ) (items : List MulticallItem) (maxChunk : ℕ)

/-- A slice of some chunk that is attempted. -/
def AttemptedSlice (chunk lo hi : ℕ) : Prop :=
  chunk < chunkCount items.length (max maxChunk 1) ∧
    AttemptedIn (node chunk) block (chunkItems items (max maxChunk 1) chunk) lo hi

def sliceReply (chunk lo hi : ℕ) : Except String (List Call3Result) :=
  replyFor (node chunk) block (chunkItems items (max maxChunk 1) chunk) lo hi

/-- The place of an item in a slice. -/
def placeIn (chunk lo i : ℕ) : ℕ := i - (chunk * max maxChunk 1 + lo)

/-- An attempted slice whose calls include the item. -/
structure HeldBy (i chunk lo hi : ℕ) : Prop where
  attempted : AttemptedSlice node block items maxChunk chunk lo hi
  first : chunk * max maxChunk 1 + lo ≤ i
  last : i < chunk * max maxChunk 1 + hi
  call : (slice (chunkItems items (max maxChunk 1) chunk) lo hi)[placeIn maxChunk chunk lo i]? = items[i]?

/-- The result that a successful slice has for the item. -/
def AnsweredBy (i chunk lo hi : ℕ) (r : Call3Result) : Prop :=
  HeldBy node block items maxChunk i chunk lo hi ∧ ∃ results,
    sliceReply node block items maxChunk chunk lo hi = .ok results ∧
      results[placeIn maxChunk chunk lo i]? = some r

/-- The item was sent in a slice of its own, which failed. -/
def FailedAlone (i : ℕ) : Prop :=
  ∃ chunk lo, HeldBy node block items maxChunk i chunk lo (lo + 1) ∧ ∃ e,
    sliceReply node block items maxChunk chunk lo (lo + 1) = .error e ∧ isNonBisectableRpcError e = false

/-- The entry of an item is its answer. -/
def EntryFor (i : ℕ) (v : Option (List Byte)) : Prop :=
  (∃ chunk lo hi r, AnsweredBy node block items maxChunk i chunk lo hi r ∧ v = callAnswer r) ∨
    FailedAlone node block items maxChunk i ∧ v = none

end Run

lemma callAnswer_eq_none {r : Call3Result} (h : callAnswer r = none) :
    r.success = false ∨ r.returnData = [] := by
  rw [callAnswer] at h
  split_ifs at h with hanswered
  rcases hsuccess : r.success with _ | _
  · exact Or.inl rfl
  · rw [hsuccess] at hanswered
    simpa using hanswered

section Assembly

variable {node : ℕ → ChunkNode} {block : Option ℕ} {items : List MulticallItem} {maxChunk chunk i : ℕ}

lemma length_chunkItems : (chunkItems items maxChunk chunk).length =
    min (chunk * maxChunk + maxChunk) items.length - chunk * maxChunk :=
  length_slice (Nat.min_le_right ..)

lemma length_chunkItems_of_succ_lt (hsize : 0 < maxChunk)
    (h : chunk + 1 < chunkCount items.length maxChunk) :
    (chunkItems items maxChunk chunk).length = maxChunk := by
  have hfull := mul_lt_of_lt_chunkCount h hsize
  rw [Nat.succ_mul] at hfull
  rw [length_chunkItems, Nat.min_eq_left hfull.le]
  omega

/-- Items that fit in one chunk are that chunk. -/
lemma chunkItems_of_le (h : items.length ≤ maxChunk) : chunkItems items maxChunk 0 = items := by
  rw [chunkItems, slice, Nat.zero_mul, Nat.zero_add, Nat.min_eq_right h, List.take_length, List.drop_zero]

lemma getElem?_chunkItems (hi : i < items.length) (hsize : 0 < maxChunk) :
    (chunkItems items maxChunk (i / maxChunk))[i % maxChunk]? = items[i]? ∧
      i % maxChunk < (chunkItems items maxChunk (i / maxChunk)).length := by
  have hdiv : i / maxChunk * maxChunk + i % maxChunk = i := Nat.div_add_mod' i maxChunk
  have hmod := Nat.mod_lt i hsize
  refine ⟨?_, ?_⟩
  · rw [chunkItems, getElem?_slice (by omega), hdiv]
  · rw [length_chunkItems]
    omega

lemma chunk_of_mem_slice {lo hi : ℕ} (hsize : 0 < maxChunk)
    (hhi : hi ≤ (chunkItems items maxChunk chunk).length) (hlo : chunk * maxChunk + lo ≤ i)
    (hlast : i < chunk * maxChunk + hi) : i / maxChunk = chunk := by
  rw [length_chunkItems] at hhi
  refine Nat.div_eq_of_lt_le ?_ ?_
  · omega
  · rw [Nat.succ_mul]
    omega

/-- The slice that holds an item's row of a chunk holds the item. -/
lemma heldBy_of_row {lo hi : ℕ} (hi' : i < items.length)
    (hpiece : AttemptedIn (node (i / max maxChunk 1)) block
      (chunkItems items (max maxChunk 1) (i / max maxChunk 1)) lo hi)
    (hlo : lo ≤ i % max maxChunk 1) (hhi : i % max maxChunk 1 < hi) :
    HeldBy node block items maxChunk i (i / max maxChunk 1) lo hi ∧
      placeIn maxChunk (i / max maxChunk 1) lo i = i % max maxChunk 1 - lo := by
  have hsize : 0 < max maxChunk 1 := by omega
  have hdiv : i / max maxChunk 1 * max maxChunk 1 + i % max maxChunk 1 = i := Nat.div_add_mod' i _
  have hplace : placeIn maxChunk (i / max maxChunk 1) lo i = i % max maxChunk 1 - lo := by
    rw [placeIn]
    omega
  refine ⟨⟨⟨div_lt_chunkCount hi' hsize, hpiece⟩, by omega, by omega, ?_⟩, hplace⟩
  have hrow : lo + (i % max maxChunk 1 - lo) = i % max maxChunk 1 := by omega
  rw [hplace, getElem?_slice (by omega), hrow]
  exact (getElem?_chunkItems hi' hsize).1

lemma entryFor_of_settledIn {v : Option (List Byte)} (hi : i < items.length)
    (h : SettledIn (node (i / max maxChunk 1)) block
      (chunkItems items (max maxChunk 1) (i / max maxChunk 1)) (i % max maxChunk 1) v) :
    EntryFor node block items maxChunk i v := by
  rcases h with ⟨lo, hi', hpiece, hlo, hhi, hrow⟩
  rcases heldBy_of_row hi hpiece hlo hhi with ⟨hheld, hplace⟩
  rcases hrow with ⟨results, r, hreply, hr, rfl⟩ | ⟨rfl, hnone, e, hreply, he⟩
  · refine Or.inl ⟨_, lo, hi', r, ⟨hheld, results, hreply, ?_⟩, rfl⟩
    rw [hplace]
    exact hr
  · exact Or.inr ⟨⟨_, lo, hheld, e, hreply, he⟩, hnone⟩

/-- A chunk that comes back. -/
lemma joinChunk_ok {finish : ℕ → TaskEnd} {row : ℕ × List (Option (List Byte))}
    (h : joinChunk node block items maxChunk finish chunk = .ok row) :
    row.1 = chunk ∧
      executeMulticallChunkResilient (node chunk) block (chunkItems items maxChunk chunk) = .ok row.2 := by
  rw [joinChunk] at h
  split at h
  · cases h
  · cases h
  · split at h
    · rename_i results hresults
      cases h
      exact ⟨rfl, hresults⟩
    · cases h

lemma joinChunk_error {finish : ℕ → TaskEnd} {e : String}
    (h : joinChunk node block items maxChunk finish chunk = .error e) :
    finish chunk ≠ .ran ∨ ∃ e',
      executeMulticallChunkResilient (node chunk) block (chunkItems items maxChunk chunk) = .error e' := by
  rw [joinChunk] at h
  split at h
  · rename_i hfinish
    exact Or.inl (by rw [hfinish]; decide)
  · rename_i hfinish
    exact Or.inl (by rw [hfinish]; decide)
  · split at h
    · cases h
    · rename_i e' he'
      exact Or.inr ⟨e', he'⟩

/-- The results of a chunk that comes back. -/
def chunkAnswers (node : ℕ → ChunkNode) (block : Option ℕ) (items : List MulticallItem)
    (maxChunk chunk : ℕ) : List (Option (List Byte)) :=
  (executeMulticallChunkResilient (node chunk) block (chunkItems items maxChunk chunk)).toOption.getD []

/-- The chunks, put in order. -/
lemma assembled {finish : ℕ → TaskEnd} {order : List ℕ} {n : ℕ}
    {indexed : List (ℕ × List (Option (List Byte)))} (horder : order.Perm (List.range n))
    (h : order.mapM (joinChunk node block items maxChunk finish) = .ok indexed) :
    (indexed.mergeSort fun a b => a.1 ≤ b.1).flatMap Prod.snd =
        (List.range n).flatMap (chunkAnswers node block items maxChunk) ∧
      ∀ c < n, executeMulticallChunkResilient (node c) block (chunkItems items maxChunk c) =
        .ok (chunkAnswers node block items maxChunk c) := by
  have hrows := mapM_ok h
  have hanswers : ∀ {c row}, joinChunk node block items maxChunk finish c = .ok row →
      executeMulticallChunkResilient (node c) block (chunkItems items maxChunk c) =
          .ok (chunkAnswers node block items maxChunk c) ∧
        row = (c, chunkAnswers node block items maxChunk c) := by
    intro c row hrow
    rcases joinChunk_ok hrow with ⟨hchunk, hrun⟩
    have hsame : chunkAnswers node block items maxChunk c = row.2 := by
      rw [chunkAnswers, hrun]
      rfl
    rw [hsame]
    exact ⟨hrun, Prod.ext hchunk rfl⟩
  have hindexed : indexed = order.map fun c => (c, chunkAnswers node block items maxChunk c) := by
    clear h horder
    induction hrows with
    | nil => rfl
    | cons hrow _ ih => rw [List.map_cons, ← ih, ← (hanswers hrow).2]
  refine ⟨?_, fun c hc => ?_⟩
  · rw [hindexed, mergeSort_indexed horder, List.flatMap_map]
  · have hmem : c ∈ order := horder.mem_iff.mpr (List.mem_range.mpr hc)
    rcases mapM_ok_mem h hmem with ⟨row, hrow⟩
    exact (hanswers hrow).1

/-- Chunks that have a result for every call make up a list that has one for every item. -/
lemma getElem?_assembled (hne : items ≠ []) (hsize : 0 < maxChunk)
    (hlen : ∀ c < chunkCount items.length maxChunk,
      (chunkAnswers node block items maxChunk c).length = (chunkItems items maxChunk c).length) :
    ((List.range (chunkCount items.length maxChunk)).flatMap
          (chunkAnswers node block items maxChunk)).length = items.length ∧
      ∀ i < items.length, ((List.range (chunkCount items.length maxChunk)).flatMap
          (chunkAnswers node block items maxChunk))[i]? =
        (chunkAnswers node block items maxChunk (i / maxChunk))[i % maxChunk]? := by
  have hfull : ∀ c < chunkCount items.length maxChunk, c + 1 < chunkCount items.length maxChunk →
      (chunkAnswers node block items maxChunk c).length = maxChunk := by
    intro c hc hnext
    rw [hlen c hc, length_chunkItems_of_succ_lt hsize hnext]
  refine ⟨?_, fun i hi => ?_⟩
  · have hpos := div_lt_chunkCount (List.length_pos_of_ne_nil hne) hsize
    rcases Nat.exists_eq_succ_of_ne_zero (Nat.ne_of_gt (Nat.zero_le _ |>.trans_lt hpos)) with ⟨n, hn⟩
    have hlast : items.length ≤ n * maxChunk + maxChunk := by
      by_contra! hmore
      have hchunk : n + 1 = (n * maxChunk + maxChunk) / maxChunk := by
        rw [← Nat.succ_mul, Nat.mul_div_cancel _ hsize]
      have hlt := div_lt_chunkCount hmore hsize
      rw [← hchunk, hn] at hlt
      omega
    have hstart := mul_lt_of_lt_chunkCount (c := n) (by rw [hn]; exact Nat.lt_succ_self n) hsize
    rw [hn, Nat.succ_eq_add_one, length_flatMap_chunks fun c hc => hfull c (by omega) (by omega),
      hlen n (by omega), length_chunkItems, Nat.min_eq_right hlast]
    omega
  · refine getElem?_flatMap_chunks hsize _ hfull (fun c hc => ?_) (div_lt_chunkCount hi hsize)
    rw [hlen c hc, length_chunkItems]
    omega

/-- The answers to one chunk alone. -/
lemma executeMulticallAtChunked_of_le {finish : ℕ → TaskEnd} {order : List ℕ} (hne : items ≠ [])
    (hle : items.length ≤ max maxChunk 1) :
    executeMulticallAtChunked node block items finish maxChunk order =
      executeMulticallChunkResilient (node 0) block items := by
  rw [executeMulticallAtChunked, if_neg hne]
  exact if_pos hle

/-- The answers to several chunks. -/
lemma executeMulticallAtChunked_of_lt {finish : ℕ → TaskEnd} {order : List ℕ} (hne : items ≠ [])
    (hlt : max maxChunk 1 < items.length)
    (horder : order.Perm (List.range (chunkCount items.length (max maxChunk 1)))) :
    executeMulticallAtChunked node block items finish maxChunk order =
      (order.mapM (joinChunk node block items (max maxChunk 1) finish)).map fun indexed =>
        (indexed.mergeSort fun a b => a.1 ≤ b.1).flatMap Prod.snd := by
  rw [executeMulticallAtChunked, if_neg hne]
  dsimp only
  rw [if_neg (Nat.not_le.mpr hlt)]
  cases h : order.mapM (joinChunk node block items (max maxChunk 1) finish) with
  | error e => rfl
  | ok indexed =>
      have hlen : indexed.length = chunkCount items.length (max maxChunk 1) := by
        rw [← (mapM_ok h).length_eq, horder.length_eq, List.length_range]
      exact if_neg fun hneq => hneq hlen

lemma entries_of_executeMulticallAtChunked {finish : ℕ → TaskEnd} {order : List ℕ}
    {out : List (Option (List Byte))}
    (horder : order.Perm (List.range (chunkCount items.length (max maxChunk 1))))
    (h : executeMulticallAtChunked node block items finish maxChunk order = .ok out) :
    out.length = items.length ∧
      ∀ i < items.length, ∃ v, out[i]? = some v ∧ EntryFor node block items maxChunk i v := by
  by_cases hne : items = []
  · subst hne
    cases h
    exact ⟨rfl, fun i hi => absurd hi (Nat.not_lt_zero i)⟩
  have hsize : 0 < max maxChunk 1 := by omega
  rcases Nat.lt_or_ge (max maxChunk 1) items.length with hlt | hle
  · rw [executeMulticallAtChunked_of_lt hne hlt horder] at h
    cases hrun : order.mapM (joinChunk node block items (max maxChunk 1) finish) with
    | error e =>
        rw [hrun] at h
        cases h
    | ok indexed =>
        rw [hrun] at h
        cases h
        rcases assembled horder hrun with ⟨hflat, hchunks⟩
        have hlen : ∀ c < chunkCount items.length (max maxChunk 1),
            (chunkAnswers node block items (max maxChunk 1) c).length =
              (chunkItems items (max maxChunk 1) c).length :=
          fun c hc => (executeMulticallChunkResilient_correct.1 _ (hchunks c hc)).1
        rcases getElem?_assembled hne hsize hlen with ⟨hlength, hrows⟩
        dsimp only
        rw [hflat]
        refine ⟨hlength, fun i hi => ?_⟩
        rw [hrows i hi]
        have hrun := hchunks _ (div_lt_chunkCount hi hsize)
        rcases (executeMulticallChunkResilient_correct.1 _ hrun).2 _ (getElem?_chunkItems hi hsize).2
          with ⟨v, hv, hsettled⟩
        exact ⟨v, hv, entryFor_of_settledIn hi hsettled⟩
  · rw [executeMulticallAtChunked_of_le hne hle] at h
    rcases executeMulticallChunkResilient_correct.1 out h with ⟨hlength, hrows⟩
    refine ⟨hlength, fun i hi => ?_⟩
    rcases hrows i hi with ⟨v, hv, hsettled⟩
    refine ⟨v, hv, entryFor_of_settledIn hi ?_⟩
    rw [Nat.div_eq_of_lt (hi.trans_le hle), Nat.mod_eq_of_lt (hi.trans_le hle), chunkItems_of_le hle]
    exact hsettled

lemma cause_of_error {finish : ℕ → TaskEnd} {order : List ℕ} {e : String}
    (horder : order.Perm (List.range (chunkCount items.length (max maxChunk 1))))
    (h : executeMulticallAtChunked node block items finish maxChunk order = .error e) :
    (∃ chunk < chunkCount items.length (max maxChunk 1), finish chunk ≠ .ran) ∨
      ∃ chunk lo hi e', AttemptedSlice node block items maxChunk chunk lo hi ∧
        sliceReply node block items maxChunk chunk lo hi = .error e' ∧
          isNonBisectableRpcError e' = true := by
  by_cases hne : items = []
  · subst hne
    cases h
  have hsize : 0 < max maxChunk 1 := by omega
  rcases Nat.lt_or_ge (max maxChunk 1) items.length with hlt | hle
  · rw [executeMulticallAtChunked_of_lt hne hlt horder] at h
    cases hrun : order.mapM (joinChunk node block items (max maxChunk 1) finish) with
    | ok indexed =>
        rw [hrun] at h
        cases h
    | error e' =>
        rcases mapM_error hrun with ⟨chunk, hmem, hchunk⟩
        have hbound := List.mem_range.mp (horder.mem_iff.mp hmem)
        rcases joinChunk_error hchunk with hfinish | ⟨e'', he''⟩
        · exact Or.inl ⟨chunk, hbound, hfinish⟩
        · rcases executeMulticallChunkResilient_correct.2 _ he'' with ⟨lo, hi, hpiece, hreply⟩
          exact Or.inr ⟨chunk, lo, hi, e'', ⟨hbound, hpiece⟩, hreply⟩
  · rw [executeMulticallAtChunked_of_le hne hle] at h
    rcases executeMulticallChunkResilient_correct.2 e h with ⟨lo, hi, hpiece, hreply⟩
    have hpos := div_lt_chunkCount (List.length_pos_of_ne_nil hne) hsize
    rw [Nat.zero_div] at hpos
    refine Or.inr ⟨0, lo, hi, e, ⟨hpos, ?_⟩, ?_⟩
    · rw [chunkItems_of_le hle]
      exact hpiece
    · rw [sliceReply, chunkItems_of_le hle]
      exact hreply

/-- The successful slice that holds an item is the only one. -/
lemma answeredBy_unique {lo hi chunk' lo' hi' : ℕ} {r r' : Call3Result}
    (h : AnsweredBy node block items maxChunk i chunk lo hi r)
    (h' : AnsweredBy node block items maxChunk i chunk' lo' hi' r') :
    (chunk, lo, hi) = (chunk', lo', hi') ∧ r = r' := by
  have hsize : 0 < max maxChunk 1 := by omega
  have hchunkOf : ∀ {c a b r}, AnsweredBy node block items maxChunk i c a b r → i / max maxChunk 1 = c := by
    intro c a b r hanswered
    rcases hanswered with ⟨hheld, -⟩
    have hstart := mul_lt_of_lt_chunkCount hheld.attempted.1 hsize
    have hne : chunkItems items (max maxChunk 1) c ≠ [] := slice_ne_nil (by omega) (Nat.min_le_right ..)
    exact chunk_of_mem_slice hsize (hheld.attempted.2.bounds hne).2 hheld.first hheld.last
  obtain rfl : chunk = chunk' := (hchunkOf h).symm.trans (hchunkOf h')
  rcases h with ⟨hheld, results, hreply, hr⟩
  rcases h' with ⟨hheld', results', hreply', hr'⟩
  have hfirst := hheld.first
  have hlast := hheld.last
  have hfirst' := hheld'.first
  have hlast' := hheld'.last
  obtain ⟨rfl, rfl⟩ := answered_slice_unique (j := i - chunk * max maxChunk 1) hheld.attempted.2
    hheld'.attempted.2 hreply hreply' ⟨by omega, by omega⟩ ⟨by omega, by omega⟩
  rw [hreply] at hreply'
  cases hreply'
  rw [hr] at hr'
  cases hr'
  exact ⟨rfl, rfl⟩

/-- Only attempted slices matter. -/
lemma executeMulticallAtChunked_congr {node' : ℕ → ChunkNode} {finish : ℕ → TaskEnd} {order : List ℕ}
    (horder : order.Perm (List.range (chunkCount items.length (max maxChunk 1))))
    (h : ∀ chunk lo hi, AttemptedSlice node block items maxChunk chunk lo hi →
      node' chunk lo hi = node chunk lo hi) :
    executeMulticallAtChunked node' block items finish maxChunk order =
      executeMulticallAtChunked node block items finish maxChunk order := by
  by_cases hne : items = []
  · rw [executeMulticallAtChunked, executeMulticallAtChunked, if_pos hne, if_pos hne]
  have hsize : 0 < max maxChunk 1 := by omega
  have hchunk : ∀ c < chunkCount items.length (max maxChunk 1),
      executeMulticallChunkResilient (node' c) block (chunkItems items (max maxChunk 1) c) =
        executeMulticallChunkResilient (node c) block (chunkItems items (max maxChunk 1) c) :=
    fun c hc => executeMulticallChunkResilient_congr fun lo hi hpiece => h c lo hi ⟨hc, hpiece⟩
  rcases Nat.lt_or_ge (max maxChunk 1) items.length with hlt | hle
  · rw [executeMulticallAtChunked_of_lt hne hlt horder, executeMulticallAtChunked_of_lt hne hlt horder]
    refine congrArg _ (mapM_congr fun c hc => ?_)
    rw [joinChunk, joinChunk, hchunk c (List.mem_range.mp (horder.mem_iff.mp hc))]
  · rw [executeMulticallAtChunked_of_le hne hle, executeMulticallAtChunked_of_le hne hle]
    have hpos := div_lt_chunkCount (List.length_pos_of_ne_nil hne) hsize
    rw [Nat.zero_div] at hpos
    have hzero := hchunk 0 hpos
    rwa [chunkItems_of_le hle] at hzero

end Assembly

/-- Every entry is the answer to its own item, from the one successful slice that held it; an entry is
empty only for a call that failed, returned no data, or failed alone. -/
theorem multicall_positions (node : ℕ → ChunkNode) (block : Option ℕ) (items : List MulticallItem)
    (maxChunk : ℕ) (finish : ℕ → TaskEnd)
    (done : CompletionOrder (chunkCount items.length (max maxChunk 1))) :
    (∀ e, executeMulticallAtChunked node block items finish maxChunk done.order = .error e →
      (∃ chunk < chunkCount items.length (max maxChunk 1), finish chunk ≠ .ran) ∨
        ∃ chunk lo hi e', AttemptedSlice node block items maxChunk chunk lo hi ∧
          sliceReply node block items maxChunk chunk lo hi = .error e' ∧
            isNonBisectableRpcError e' = true) ∧
    (∀ out, executeMulticallAtChunked node block items finish maxChunk done.order = .ok out →
      out.length = items.length ∧ ∀ i < items.length, ∃ v, out[i]? = some v ∧
        EntryFor node block items maxChunk i v ∧
          (v = none → FailedAlone node block items maxChunk i ∨
            ∃ chunk lo hi r, AnsweredBy node block items maxChunk i chunk lo hi r ∧
              (r.success = false ∨ r.returnData = []))) ∧
    (∀ i chunk lo hi r chunk' lo' hi' r', AnsweredBy node block items maxChunk i chunk lo hi r →
      AnsweredBy node block items maxChunk i chunk' lo' hi' r' →
        (chunk, lo, hi) = (chunk', lo', hi') ∧ r = r') ∧
    ∀ node' : ℕ → ChunkNode, (∀ chunk lo hi, AttemptedSlice node block items maxChunk chunk lo hi →
        node' chunk lo hi = node chunk lo hi) →
      executeMulticallAtChunked node' block items finish maxChunk done.order =
        executeMulticallAtChunked node block items finish maxChunk done.order := by
  refine ⟨fun e he => cause_of_error done.perm he, fun out hout => ?_, ?_, ?_⟩
  · rcases entries_of_executeMulticallAtChunked done.perm hout with ⟨hlength, hrows⟩
    refine ⟨hlength, fun i hi => ?_⟩
    rcases hrows i hi with ⟨v, hv, hentry⟩
    refine ⟨v, hv, hentry, fun hnone => ?_⟩
    rcases hentry with ⟨chunk, lo, hi', r, hanswered, hanswer⟩ | ⟨halone, -⟩
    · exact Or.inr ⟨chunk, lo, hi', r, hanswered, callAnswer_eq_none (hanswer.symm.trans hnone)⟩
    · exact Or.inl halone
  · exact fun i chunk lo hi r chunk' lo' hi' r' h h' => answeredBy_unique h h'
  · exact fun node' h => executeMulticallAtChunked_congr done.perm h

/-- A node whose calls all succeed and return nothing. -/
def emptyAnswers : ℕ → ChunkNode := fun _ _ _ _ _ => .ok [⟨true, []⟩]

/-- A call that succeeded without data has no entry either. -/
theorem multicall_none_of_empty_answer :
    executeMulticallAtChunked emptyAnswers none [⟨1, []⟩] (fun _ => .ran) 1 [0] = .ok [none] ∧
      ¬ (FailedAlone emptyAnswers none [⟨1, []⟩] 1 0 ∨
        ∃ chunk lo hi r, AnsweredBy emptyAnswers none [⟨1, []⟩] 1 0 chunk lo hi r ∧ r.success = false) := by
  have hreply : sliceReply emptyAnswers none [⟨1, []⟩] 1 0 0 1 = .ok [⟨true, []⟩] := rfl
  have hheld : ∀ {chunk lo hi}, HeldBy emptyAnswers none [⟨1, []⟩] 1 0 chunk lo hi →
      chunk = 0 ∧ lo = 0 ∧ hi = 1 := by
    rintro chunk lo hi ⟨⟨hchunk, hpiece⟩, -⟩
    obtain rfl : chunk = 0 := Nat.lt_one_iff.mp hchunk
    have hbounds : lo < hi ∧ hi ≤ 1 := hpiece.bounds (List.cons_ne_nil _ _)
    omega
  have hone : sliceOutcome (emptyAnswers 0) none [⟨1, []⟩] 0 1 = .answered [none] := rfl
  refine ⟨?_, ?_⟩
  · rw [executeMulticallAtChunked_of_le (List.cons_ne_nil _ _) le_rfl, executeMulticallChunkResilient,
      if_neg (List.cons_ne_nil _ _), List.length_singleton, drain_answered hone, drain]
    rfl
  · rintro (⟨chunk, lo, hin, e, herror, -⟩ | ⟨chunk, lo, hi, r, ⟨hin, results, hok, hr⟩, hfailed⟩)
    · rcases hheld hin with ⟨rfl, rfl, -⟩
      rw [Nat.zero_add, hreply] at herror
      cases herror
    · rcases hheld hin with ⟨rfl, rfl, rfl⟩
      rw [hreply] at hok
      cases hok
      cases hr
      cases hfailed

end PolygonArb
