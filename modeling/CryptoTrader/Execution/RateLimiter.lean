import CryptoTrader.Execution.Authority
import CryptoTrader.Lib.TokenBucket

/-!
# The rate limit of the execution authority

`execution/rate_limiter.py`, the budget that the submission paths share, and the execution
authority with it. The limiter is a token bucket: over any calls, in any order, it allows a
cost exactly if every window that ends with the call has room for it. The authority asks it
last, so that an order which is turned away for another reason costs nothing.
-/

namespace CryptoTrader

open TokenBucket

structure RateLimiter where
  capacity : ℤ
  refillPerSecond : ℚ
  tokens : ℚ
  updated : ℚ
  deriving DecidableEq, Repr

namespace RateLimiter

/-- A new limiter, at the reading `now` of the monotonic clock. -/
def new (capacity : ℤ) (refillPerSecond now : ℚ) : RateLimiter :=
  ⟨capacity, refillPerSecond, capacity, now⟩

def allow (limiter : RateLimiter) (cost : ℤ) (now : ℚ) : Bool × RateLimiter :=
  let limiter :=
    { limiter with
      tokens := min (limiter.capacity : ℚ) (limiter.tokens + (now - limiter.updated) * limiter.refillPerSecond)
      updated := now }
  if (cost : ℚ) ≤ limiter.tokens then (true, { limiter with tokens := limiter.tokens - cost }) else (false, limiter)

/-- The bucket that the limiter is. -/
def bucket (limiter : RateLimiter) : Bucket ℚ :=
  ⟨limiter.capacity, limiter.refillPerSecond, limiter.tokens, limiter.updated⟩

lemma bucket_new (capacity : ℤ) (refillPerSecond now : ℚ) :
    (new capacity refillPerSecond now).bucket = full (capacity : ℚ) refillPerSecond now := rfl

lemma bucket_allow (limiter : RateLimiter) (cost : ℤ) (now : ℚ) :
    (limiter.allow cost now).1 = (limiter.bucket.take ⟨now, cost⟩).1 ∧
      (limiter.allow cost now).2.bucket = (limiter.bucket.take ⟨now, cost⟩).2 := by
  unfold allow Bucket.take
  dsimp only
  split
  · rename_i h
    rw [if_pos (show _ ≤ (limiter.bucket.refill now).tokens from h)]
    exact ⟨rfl, rfl⟩
  · rename_i h
    rw [if_neg (show ¬ _ ≤ (limiter.bucket.refill now).tokens from h)]
    exact ⟨rfl, rfl⟩

/-- A call of `allow`. -/
structure Call where
  cost : ℤ := 1
  now : ℚ
  deriving DecidableEq, Repr

def Call.request (call : Call) : Request ℚ :=
  ⟨call.now, call.cost⟩

def after (limiter : RateLimiter) (calls : List Call) : RateLimiter :=
  calls.foldl (fun limiter call => (limiter.allow call.cost call.now).2) limiter

/-- The calls with their answers. -/
def log (limiter : RateLimiter) : List Call → List (Entry ℚ)
  | [] => []
  | call :: calls =>
    ⟨call.request, (limiter.allow call.cost call.now).1⟩ :: (limiter.allow call.cost call.now).2.log calls

lemma bucket_after (limiter : RateLimiter) (calls : List Call) :
    (limiter.after calls).bucket = limiter.bucket.after (calls.map Call.request) := by
  induction calls generalizing limiter with
  | nil => rfl
  | cons call calls ih =>
    have hstep := (limiter.bucket_allow call.cost call.now).2
    change ((limiter.allow call.cost call.now).2.after calls).bucket = _
    rw [ih, hstep]
    rfl

lemma log_eq (limiter : RateLimiter) (calls : List Call) :
    limiter.log calls = limiter.bucket.log (calls.map Call.request) := by
  induction calls generalizing limiter with
  | nil => rfl
  | cons call calls ih =>
    obtain ⟨hanswer, hstep⟩ := limiter.bucket_allow call.cost call.now
    rw [log, ih, hanswer, hstep]
    rfl

end RateLimiter

/-! ### The authority with a limiter -/

/-- The conditions of the instrument but for the limiter's. -/
def unlimitedChecks (intent : OrderIntent) (ctx : AuthorizationContext) (instrument : Instrument)
    (price tickPrice stepQty : ℚ) : List GateCheck :=
  (instrumentChecks intent ctx instrument price tickPrice stepQty).dropLast

lemma firstFailure_concat (checks : List GateCheck) (c : GateCheck) :
    firstFailure (checks ++ [c]) = (firstFailure checks).or (if c.fails then some (c.decision, [c.note]) else none) := by
  unfold firstFailure
  rw [List.find?_append]
  cases checks.find? GateCheck.fails with
  | some d => rfl
  | none =>
    cases hc : c.fails with
    | true => simp [hc]
    | false => simp [hc]

lemma firstFailure_instrument (intent : OrderIntent) (ctx : AuthorizationContext) (instrument : Instrument)
    (price tickPrice stepQty : ℚ) (answer : Option Bool) :
    firstFailure (instrumentChecks intent { ctx with rateLimiter := answer } instrument price tickPrice stepQty) =
      (firstFailure (unlimitedChecks intent ctx instrument price tickPrice stepQty)).or
        (if answer = some false then some (.hold, ["RATE_LIMIT_BUDGET_EXHAUSTED"]) else none) := by
  have hsplit : instrumentChecks intent { ctx with rateLimiter := answer } instrument price tickPrice stepQty =
      unlimitedChecks intent ctx instrument price tickPrice stepQty ++
        [⟨answer = some false, .hold, "RATE_LIMIT_BUDGET_EXHAUSTED"⟩] := rfl
  rw [hsplit, firstFailure_concat]
  by_cases h : answer = some false <;> simp [h]

lemma firstFailure_ne_approve {checks : List GateCheck} (h : ∀ c ∈ checks, c.decision ≠ .approve)
    {refusal : ExecutionDecision × List String} (hf : firstFailure checks = some refusal) : refusal.1 ≠ .approve := by
  obtain ⟨c, hc, hdecision⟩ := firstFailure_some hf
  rw [hdecision]
  exact h c hc

/-- What the limiter makes of the answer that all else gives. -/
def limited (allowed : Bool) : Except TradingError (ExecutionDecision × List String) →
    Except TradingError (ExecutionDecision × List String)
  | .ok (.approve, notes) => if allowed then .ok (.approve, notes) else .ok (.hold, ["RATE_LIMIT_BUDGET_EXHAUSTED"])
  | other => other

lemma limited_of_ne {refusal : ExecutionDecision × List String} (h : refusal.1 ≠ .approve) (allowed : Bool) :
    limited allowed (.ok refusal) = .ok refusal := by
  obtain ⟨decision, notes⟩ := refusal
  cases decision with
  | approve => exact absurd rfl h
  | hold => rfl
  | reject => rfl

/-- Only an order that everything else has passed is up to the limiter. -/
lemma authorize_limited (intent : OrderIntent) (expiresAt : Option ℤ) (ctx : AuthorizationContext) (allowed : Bool) :
    authorize intent expiresAt { ctx with rateLimiter := some allowed } =
      limited allowed (authorize intent expiresAt { ctx with rateLimiter := none }) := by
  have hstanding (answer : Option Bool) : standingChecks intent expiresAt { ctx with rateLimiter := answer } =
      standingChecks intent expiresAt ctx := rfl
  unfold authorize
  simp only [hstanding, bind, Except.bind, pure, Except.pure, firstFailure_instrument]
  cases hs : firstFailure (standingChecks intent expiresAt ctx) with
  | some refusal =>
    have hne := firstFailure_ne_approve (by simp [standingChecks]) hs
    exact (limited_of_ne hne allowed).symm
  | none =>
    cases hinstrument : ctx.instrument with
    | none => rfl
    | some instrument =>
      dsimp only
      generalize orDecimal intent.price 0 = price
      have hne {tickPrice stepQty : ℚ} {refusal : ExecutionDecision × List String}
          (hf : firstFailure (unlimitedChecks intent ctx instrument price tickPrice stepQty) = some refusal) :
          refusal.1 ≠ .approve :=
        firstFailure_ne_approve (by simp [unlimitedChecks, instrumentChecks]) hf
      by_cases hpos : 0 < price
      · simp only [if_pos hpos]
        cases roundTick price instrument.tickSize with
        | error e => rfl
        | ok tickPrice =>
          by_cases htick : 0 < price ∧ tickPrice ≠ price
          · simp only [if_pos htick]
            rfl
          · simp only [if_neg htick]
            cases floorToStep intent.quantity instrument.stepSize with
            | error e => rfl
            | ok stepQty =>
              dsimp only
              cases hf : firstFailure (unlimitedChecks intent ctx instrument price tickPrice stepQty) with
              | some refusal => exact (limited_of_ne (hne hf) allowed).symm
              | none => cases allowed <;> rfl
      · simp only [if_neg hpos]
        have htick : ¬ (0 < price ∧ price ≠ price) := fun h => hpos h.1
        simp only [if_neg htick]
        cases floorToStep intent.quantity instrument.stepSize with
        | error e => rfl
        | ok stepQty =>
          dsimp only
          cases hf : firstFailure (unlimitedChecks intent ctx instrument price price stepQty) with
          | some refusal => exact (limited_of_ne (hne hf) allowed).symm
          | none => cases allowed <;> rfl

/-- The answer is an approval. -/
def approves : Except TradingError (ExecutionDecision × List String) → Bool
  | .ok (.approve, _) => true
  | _ => false

lemma approves_limited (allowed : Bool) (answer : Except TradingError (ExecutionDecision × List String)) :
    approves (limited allowed answer) = (approves answer && allowed) := by
  unfold limited
  split
  · cases allowed <;> rfl
  · rename_i h
    unfold approves
    split
    · exact absurd rfl (h _)
    · rfl

/-- A call of the authority: the order, its context without a limiter, and the reading of the
monotonic clock. -/
structure AuthorityCall where
  intent : OrderIntent
  expiresAt : Option ℤ := none
  ctx : AuthorizationContext
  clock : ℚ
  deriving Repr

namespace AuthorityCall

/-- The answer of the authority without a limiter. -/
def unlimited (call : AuthorityCall) : Except TradingError (ExecutionDecision × List String) :=
  authorize call.intent call.expiresAt { call.ctx with rateLimiter := none }

/-- The order passes everything but the limiter. -/
def passes (call : AuthorityCall) : Bool :=
  approves call.unlimited

/-- `authorize` with a limiter, which is asked if everything else has passed. -/
def authorizeWith (limiter : RateLimiter) (call : AuthorityCall) :
    Except TradingError (ExecutionDecision × List String) × RateLimiter :=
  if call.passes then
    let (allowed, limiter) := limiter.allow 1 call.clock
    (authorize call.intent call.expiresAt { call.ctx with rateLimiter := some allowed }, limiter)
  else (call.unlimited, limiter)

def request (call : AuthorityCall) : Request ℚ :=
  ⟨call.clock, 1⟩

def after (limiter : RateLimiter) (calls : List AuthorityCall) : RateLimiter :=
  calls.foldl (fun limiter call => (authorizeWith limiter call).2) limiter

/-- The times at which orders are approved. -/
def approvals (limiter : RateLimiter) : List AuthorityCall → List ℚ
  | [] => []
  | call :: calls =>
    let rest := approvals (authorizeWith limiter call).2 calls
    if approves (authorizeWith limiter call).1 then call.clock :: rest else rest

/-- The approvals from time `a` to time `b`. -/
def approvedIn (a b : ℚ) (limiter : RateLimiter) (calls : List AuthorityCall) : ℕ :=
  (approvals limiter calls).countP (fun t => a ≤ t ∧ t ≤ b)

/-- The requests that reach the limiter. -/
def requests (calls : List AuthorityCall) : List (Request ℚ) :=
  (calls.filter passes).map request

variable {limiter : RateLimiter} {call : AuthorityCall}

lemma approves_authorizeWith :
    approves (authorizeWith limiter call).1 = (call.passes && (limiter.bucket.take call.request).1) := by
  have hbucket := (limiter.bucket_allow 1 call.clock).1
  unfold authorizeWith
  cases hp : call.passes with
  | true =>
    rw [if_pos rfl]
    dsimp only
    rw [authorize_limited, approves_limited, hbucket]
    change (call.passes && _) = _
    rw [hp]
    rfl
  | false =>
    rw [if_neg (by simp)]
    exact hp

lemma bucket_authorizeWith : (authorizeWith limiter call).2.bucket =
    if call.passes then (limiter.bucket.take call.request).2 else limiter.bucket := by
  unfold authorizeWith
  split
  · exact (limiter.bucket_allow 1 call.clock).2
  · rfl

lemma bucket_after (limiter : RateLimiter) (calls : List AuthorityCall) :
    (after limiter calls).bucket = limiter.bucket.after (requests calls) := by
  induction calls generalizing limiter with
  | nil => rfl
  | cons call calls ih =>
    change (after (authorizeWith limiter call).2 calls).bucket = _
    rw [ih, bucket_authorizeWith, requests, requests]
    cases hp : call.passes with
    | true =>
      rw [List.filter_cons_of_pos hp]
      rfl
    | false =>
      rw [List.filter_cons_of_neg (by simp [hp])]
      rfl

/-- The approvals are what the limiter has granted. -/
lemma approvedIn_eq (a b : ℚ) (limiter : RateLimiter) (calls : List AuthorityCall) :
    (approvedIn a b limiter calls : ℚ) = spentIn a b (limiter.bucket.log (requests calls)) := by
  induction calls generalizing limiter with
  | nil => rfl
  | cons call calls ih =>
    have hrest := ih (authorizeWith limiter call).2
    rw [bucket_authorizeWith] at hrest
    unfold approvedIn at hrest ⊢
    rw [approvals]
    cases hp : call.passes with
    | false =>
      have hskip : requests (call :: calls) = requests calls := by
        unfold requests
        rw [List.filter_cons_of_neg (by simp [hp])]
      rw [hp, if_neg Bool.false_ne_true] at hrest
      rw [hskip, ← hrest, approves_authorizeWith, hp]
      rfl
    | true =>
      have hnext : requests (call :: calls) = call.request :: requests calls := by
        unfold requests
        rw [List.filter_cons_of_pos hp, List.map_cons]
      rw [hp, if_pos rfl] at hrest
      rw [hnext, Bucket.log, spentIn_cons, ← hrest, approves_authorizeWith, hp, Bool.true_and]
      cases (limiter.bucket.take call.request).1 with
      | false => simp [Entry.spent]
      | true =>
        rw [if_pos rfl, List.countP_cons, Nat.cast_add, add_comm]
        congr 1
        by_cases hin : a ≤ call.clock ∧ call.clock ≤ b
        · simp [hin, Entry.spent, request]
        · simp [hin, request]

/-- The calls are made one after another, `last` after all of them. -/
def InOrder (created : ℚ) (calls : List AuthorityCall) (last : ℚ) : Prop :=
  (created :: (calls.map clock ++ [last])).Pairwise (· ≤ ·)

instance (created : ℚ) (calls : List AuthorityCall) (last : ℚ) : Decidable (InOrder created calls last) :=
  inferInstanceAs (Decidable (List.Pairwise _ _))

/-- In any interval of time the authority approves at most the burst and what the limiter refills. -/
lemma approved_le {capacity : ℤ} {refillPerSecond : ℚ} (created : ℚ) (hcapacity : 0 ≤ capacity)
    (hrefill : 0 ≤ refillPerSecond) (calls : List AuthorityCall) {a b : ℚ} (hab : a ≤ b) :
    (approvedIn a b (.new capacity refillPerSecond created) calls : ℚ) ≤ capacity + (b - a) * refillPerSecond := by
  have hcosts : ∀ r ∈ requests calls, 0 ≤ r.cost := by
    intro r hr
    obtain ⟨call, -, rfl⟩ := List.mem_map.mp hr
    exact zero_le_one
  rw [approvedIn_eq]
  exact spentIn_le (by exact_mod_cast hcapacity) hrefill hcosts hab

/-- Over any calls of any submission path the authority approves an order if and only if all else passes and no
interval that ends now would then see more approvals than the capacity and what the limiter
refills in it. -/
lemma approves_iff {capacity : ℤ} {refillPerSecond created : ℚ} (hrefill : 0 ≤ refillPerSecond)
    {calls : List AuthorityCall} {call : AuthorityCall} (horder : InOrder created calls call.clock) :
    let limiter : RateLimiter := .new capacity refillPerSecond created
    approves (authorizeWith (after limiter calls) call).1 = true ↔
      call.passes = true ∧ ∀ a, created ≤ a → a ≤ call.clock →
        (approvedIn a call.clock limiter calls : ℚ) + 1 ≤ capacity + (call.clock - a) * refillPerSecond := by
  intro limiter
  have hcosts : ∀ r ∈ requests calls, 0 ≤ r.cost := by
    intro r hr
    obtain ⟨c, -, rfl⟩ := List.mem_map.mp hr
    exact zero_le_one
  have hin : TokenBucket.InOrder created (requests calls) call.request.time := by
    have htimes : (requests calls).map Request.time = (calls.filter passes).map clock := by
      rw [requests, List.map_map]
      rfl
    rw [TokenBucket.InOrder, htimes]
    refine horder.sublist (.cons_cons created ?_)
    exact (List.filter_sublist.map clock).append (List.Sublist.refl _)
  have hgranted : (((full (capacity : ℚ) refillPerSecond created).after (requests calls)).take call.request).1 = true ↔ _ :=
    take_iff_intervals hrefill hcosts hin
  rw [approves_authorizeWith, Bool.and_eq_true, bucket_after, RateLimiter.bucket_new, hgranted]
  simp only [approvedIn_eq]
  rfl

section Samples

def sampleCall (clock : ℚ) : AuthorityCall where
  intent := { clientOrderId := "c1", symbol := "BTCUSDT", side := .buy, price := some (10001 / 100), quantity := 1 / 10 }
  ctx :=
    { leaseHeld := true, marketDataFresh := true, orderbookFresh := true, orderbookHealthy := true,
      symbolTradeable := true, exchangeConnected := true, balanceFresh := true,
      riskDecision := some ⟨"c1", "BTCUSDT", .buy, .approve, "RISK_PASS", []⟩,
      instrument := some ⟨"BTCUSDT", "BTC", "USDT", "TRADING", 1 / 100, 1 / 1000, 1 / 1000, 5, "UNKNOWN"⟩ }
  clock := clock

/-- A burst of two, and half an order a second: of three orders at once the third is held. -/
example : approvals (.new 2 (1 / 2) 0) [sampleCall 0, sampleCall 0, sampleCall 1, sampleCall 2] = [0, 0, 2] := by
  decide +kernel

end Samples

end AuthorityCall

end CryptoTrader
