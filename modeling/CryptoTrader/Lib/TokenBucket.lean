import Mathlib.Algebra.Order.Ring.Defs
import Mathlib.Algebra.BigOperators.Group.List.Basic
import Mathlib.Algebra.Order.BigOperators.Group.List
import Mathlib.Data.List.Infix
import Mathlib.Data.List.Induction
import Mathlib.Tactic.Linarith

/-!
# Token buckets

A bucket is refilled at a constant rate up to its capacity, and a request takes its cost from
it or is refused. What the bucket holds is the least room that any window of the past leaves:
a request is granted exactly if no window that ends with it would spend more than the capacity
and the refill of its length (`take_iff`), and so no interval of time ever sees more spent
(`spentIn_le`).
-/

namespace TokenBucket

variable {K : Type}

structure Bucket (K : Type) where
  capacity : K
  rate : K
  tokens : K
  updated : K
  deriving DecidableEq, Repr

structure Request (K : Type) where
  time : K
  cost : K
  deriving DecidableEq, Repr

/-- A request and its answer. -/
structure Entry (K : Type) extends Request K where
  granted : Bool
  deriving DecidableEq, Repr

section Entries

variable [Ring K]

/-- What an entry took. -/
def Entry.spent (e : Entry K) : K :=
  if e.granted then e.cost else 0

def spent (entries : List (Entry K)) : K :=
  (entries.map Entry.spent).sum

@[simp] lemma spent_nil : spent ([] : List (Entry K)) = 0 := rfl

lemma spent_append (xs ys : List (Entry K)) : spent (xs ++ ys) = spent xs + spent ys := by
  rw [spent, List.map_append, List.sum_append]
  rfl

lemma spent_cons (e : Entry K) (entries : List (Entry K)) : spent (e :: entries) = e.spent + spent entries := by
  simp [spent]

@[simp] lemma spent_singleton (e : Entry K) : spent [e] = e.spent := by
  simp [spent]

end Entries

section Operations

variable [Ring K] [LinearOrder K]

/-- A full bucket. -/
def full (capacity rate created : K) : Bucket K :=
  ⟨capacity, rate, capacity, created⟩

namespace Bucket

def refill (b : Bucket K) (now : K) : Bucket K :=
  { b with tokens := min b.capacity (b.tokens + (now - b.updated) * b.rate), updated := now }

def take (b : Bucket K) (r : Request K) : Bool × Bucket K :=
  let b := b.refill r.time
  if r.cost ≤ b.tokens then (true, { b with tokens := b.tokens - r.cost }) else (false, b)

def after (b : Bucket K) (requests : List (Request K)) : Bucket K :=
  requests.foldl (fun b r => (b.take r).2) b

/-- The requests with their answers. -/
def log (b : Bucket K) : List (Request K) → List (Entry K)
  | [] => []
  | r :: requests => ⟨r, (b.take r).1⟩ :: (b.take r).2.log requests

end Bucket

/-- What was taken from time `a` to time `b`. -/
def spentIn (a b : K) (entries : List (Entry K)) : K :=
  spent (entries.filter (fun e => a ≤ e.time ∧ e.time ≤ b))

lemma spentIn_append (a b : K) (xs ys : List (Entry K)) :
    spentIn a b (xs ++ ys) = spentIn a b xs + spentIn a b ys := by
  rw [spentIn, List.filter_append, spent_append]
  rfl

lemma spentIn_cons (a b : K) (e : Entry K) (entries : List (Entry K)) :
    spentIn a b (e :: entries) = (if a ≤ e.time ∧ e.time ≤ b then e.spent else 0) + spentIn a b entries := by
  unfold spentIn
  by_cases h : a ≤ e.time ∧ e.time ≤ b
  · rw [List.filter_cons_of_pos (by simpa using h), if_pos h, spent_cons]
  · rw [List.filter_cons_of_neg (by simpa using h), if_neg h, zero_add]

end Operations

section Windows

variable [Ring K] [LinearOrder K]

/-- `x` more at time `now` fits into every window of the history: the one of length 0, the
one since the bucket was made, and the ones that begin with an entry. -/
structure Fits (capacity rate created : K) (history : List (Entry K)) (now x : K) : Prop where
  burst : x ≤ capacity
  sinceCreated : spent history + x ≤ capacity + (now - created) * rate
  since : ∀ e rest, e :: rest <:+ history → spent (e :: rest) + x ≤ capacity + (now - e.time) * rate

namespace Bucket

lemma after_concat (b : Bucket K) (requests : List (Request K)) (r : Request K) :
    b.after (requests ++ [r]) = ((b.after requests).take r).2 := by
  simp [after]

lemma log_concat (b : Bucket K) (requests : List (Request K)) (r : Request K) :
    b.log (requests ++ [r]) = b.log requests ++ [⟨r, ((b.after requests).take r).1⟩] := by
  induction requests generalizing b with
  | nil => rfl
  | cons q requests ih =>
    rw [List.cons_append, log, ih]
    rfl

variable (b : Bucket K) (r : Request K)

lemma take_fst : (b.take r).1 = decide (r.cost ≤ (b.refill r.time).tokens) := by
  unfold take
  dsimp only
  split <;> simp_all

lemma take_tokens : (b.take r).2.tokens = (b.refill r.time).tokens - (⟨r, (b.take r).1⟩ : Entry K).spent := by
  unfold take Entry.spent
  dsimp only
  split <;> simp

lemma take_updated : (b.take r).2.updated = r.time := by
  unfold take
  dsimp only
  split <;> rfl

lemma take_capacity : (b.take r).2.capacity = b.capacity := by
  unfold take
  dsimp only
  split <;> rfl

lemma take_rate : (b.take r).2.rate = b.rate := by
  unfold take
  dsimp only
  split <;> rfl

end Bucket

end Windows

section Full

variable [CommRing K] [LinearOrder K] {capacity rate created : K}

lemma after_full (requests : List (Request K)) :
    ((full capacity rate created).after requests).capacity = capacity ∧
      ((full capacity rate created).after requests).rate = rate := by
  induction requests using List.reverseRecOn with
  | nil => exact ⟨rfl, rfl⟩
  | append_singleton requests r ih =>
    rw [Bucket.after_concat, Bucket.take_capacity, Bucket.take_rate]
    exact ih

lemma log_spent_nonneg {b : Bucket K} {requests : List (Request K)} (h : ∀ r ∈ requests, 0 ≤ r.cost) :
    ∀ e ∈ b.log requests, 0 ≤ e.spent := by
  induction requests generalizing b with
  | nil => simp [Bucket.log]
  | cons r requests ih =>
    intro e he
    rcases List.mem_cons.mp he with rfl | he
    · unfold Entry.spent
      split
      · exact h r List.mem_cons_self
      · exact le_rfl
    · exact ih (fun q hq => h q (List.mem_cons_of_mem _ hq)) e he

lemma log_times (b : Bucket K) (requests : List (Request K)) :
    (b.log requests).map (fun e => e.time) = requests.map Request.time := by
  induction requests generalizing b with
  | nil => rfl
  | cons r requests ih => rw [Bucket.log, List.map_cons, ih, List.map_cons]

end Full

variable [CommRing K] [LinearOrder K] [IsStrictOrderedRing K] {capacity rate created : K}

/-- One entry more, and `x` after it. -/
lemma fits_concat {history : List (Entry K)} {e : Entry K} {now x : K} :
    Fits capacity rate created (history ++ [e]) now x ↔
      x ≤ capacity ∧ Fits capacity rate created history e.time (x + e.spent - (now - e.time) * rate) := by
  constructor
  · rintro ⟨hburst, hcreated, hsince⟩
    have hnew := hsince e [] (List.suffix_concat_iff.mpr (.inr ⟨[], rfl, List.nil_suffix⟩))
    rw [spent_singleton] at hnew
    refine ⟨hburst, by linarith, ?_, ?_⟩
    · rw [spent_append, spent_singleton] at hcreated
      linarith
    · intro f rest hf
      have hold := hsince f (rest ++ [e]) (List.suffix_concat_iff.mpr (.inr ⟨f :: rest, rfl, hf⟩))
      rw [← List.cons_append, spent_append, spent_singleton] at hold
      linarith
  · rintro ⟨hburst, hnew, hcreated, hsince⟩
    refine ⟨hburst, ?_, ?_⟩
    · rw [spent_append, spent_singleton]
      linarith
    · intro f rest hf
      obtain h | ⟨t, ht, hsuffix⟩ := List.suffix_concat_iff.mp hf
      · exact absurd h (by simp)
      · cases t with
        | nil =>
          obtain ⟨rfl, rfl⟩ := List.cons_eq_cons.mp ht
          rw [spent_singleton]
          linarith
        | cons g t =>
          obtain ⟨rfl, rfl⟩ := List.cons_eq_cons.mp ht
          have hold := hsince f t hsuffix
          have hspent : spent (f :: t.append [e]) = spent (f :: t) + e.spent := by
            rw [← spent_singleton e, ← spent_append]
            rfl
          rw [hspent]
          linarith

/-- What the bucket holds is the least room of all windows. -/
lemma le_tokens_iff (requests : List (Request K)) (now x : K) :
    x ≤ (((full capacity rate created).after requests).refill now).tokens ↔
      Fits capacity rate created ((full capacity rate created).log requests) now x := by
  induction requests using List.reverseRecOn generalizing now x with
  | nil =>
    simp only [Bucket.after, List.foldl_nil, Bucket.refill, full, Bucket.log, le_min_iff]
    constructor
    · rintro ⟨hburst, hcreated⟩
      refine ⟨hburst, by simpa using hcreated, ?_⟩
      intro e rest h
      exact absurd (List.suffix_nil.mp h) (by simp)
    · rintro ⟨hburst, hcreated, -⟩
      exact ⟨hburst, by simpa using hcreated⟩
  | append_singleton requests r ih =>
    obtain ⟨hcapacity, hrate⟩ : ((full capacity rate created).after requests).capacity = capacity ∧
      ((full capacity rate created).after requests).rate = rate := after_full requests
    have ih' := fun x => ih r.time x
    rw [Bucket.log_concat, fits_concat, ← ih', Bucket.after_concat]
    generalize (full capacity rate created).after requests = b at *
    rw [Bucket.refill, Bucket.take_tokens, Bucket.take_updated, Bucket.take_capacity, Bucket.take_rate, hcapacity, hrate,
      le_min_iff]
    refine and_congr_right (fun _ => ?_)
    constructor
    · intro h
      linarith
    · intro h
      linarith

/-- A request is granted if and only if its cost fits into every window that ends with it. -/
theorem take_iff (requests : List (Request K)) (r : Request K) :
    (((full capacity rate created).after requests).take r).1 = true ↔
      Fits capacity rate created ((full capacity rate created).log requests) r.time r.cost := by
  rw [Bucket.take_fst, decide_eq_true_iff, le_tokens_iff]

lemma spent_filter_le {entries : List (Entry K)} (h : ∀ e ∈ entries, 0 ≤ e.spent) (p : Entry K → Bool) :
    spent (entries.filter p) ≤ spent entries := by
  induction entries with
  | nil => exact le_rfl
  | cons e entries ih =>
    have hrest := ih (fun f hf => h f (List.mem_cons_of_mem _ hf))
    by_cases hp : p e
    · rw [List.filter_cons_of_pos hp, spent_cons, spent_cons]
      exact add_le_add_right hrest _
    · rw [List.filter_cons_of_neg hp, spent_cons]
      exact hrest.trans (le_add_of_nonneg_left (h e List.mem_cons_self))

/-- What an interval takes was taken since its first entry, if it has one. -/
lemma spentIn_le_since {a b : K} {history : List (Entry K)} (h : ∀ e ∈ history, 0 ≤ e.spent) :
    spentIn a b history = 0 ∨ ∃ e rest, e :: rest <:+ history ∧ a ≤ e.time ∧ spentIn a b history ≤ spent (e :: rest) := by
  induction history with
  | nil => exact .inl rfl
  | cons e history ih =>
    by_cases ha : a ≤ e.time
    · exact .inr ⟨e, history, List.suffix_rfl, ha, spent_filter_le h _⟩
    · rw [spentIn_cons, if_neg (fun h => ha h.1), zero_add]
      rcases ih (fun f hf => h f (List.mem_cons_of_mem _ hf)) with hzero | ⟨f, rest, hf, hfa, hle⟩
      · exact .inl hzero
      · exact .inr ⟨f, rest, hf.trans (List.suffix_cons e history), hfa, hle⟩

/-- No interval of time sees more spent than the capacity and the refill of its length. -/
theorem spentIn_le (hcapacity : 0 ≤ capacity) (hrate : 0 ≤ rate) {requests : List (Request K)}
    (hcosts : ∀ r ∈ requests, 0 ≤ r.cost) {a b : K} (hab : a ≤ b) :
    spentIn a b ((full capacity rate created).log requests) ≤ capacity + (b - a) * rate := by
  have hroom : 0 ≤ (b - a) * rate := mul_nonneg (sub_nonneg.mpr hab) hrate
  induction requests using List.reverseRecOn with
  | nil => exact add_nonneg hcapacity hroom
  | append_singleton requests r ih =>
    have hcosts' : ∀ q ∈ requests, 0 ≤ q.cost := fun q hq => hcosts q (List.mem_append_left _ hq)
    have hold := ih hcosts'
    have hfits : (((full capacity rate created).after requests).take r).1 = true ↔
      Fits capacity rate created ((full capacity rate created).log requests) r.time r.cost := take_iff requests r
    have hnonneg : ∀ e ∈ (full capacity rate created).log requests, 0 ≤ e.spent := log_spent_nonneg hcosts'
    have hsince : spentIn a b ((full capacity rate created).log requests) = 0 ∨ _ := spentIn_le_since hnonneg
    rw [Bucket.log_concat]
    generalize (((full capacity rate created).after requests).take r).1 = granted at *
    rw [spentIn_append]
    by_cases hcounts : (a ≤ r.time ∧ r.time ≤ b) ∧ granted = true
    · obtain ⟨⟨hra, hrb⟩, hgranted⟩ := hcounts
      have hone : spentIn a b [(⟨r, granted⟩ : Entry K)] = r.cost := by
        simp [spentIn, hra, hrb, Entry.spent, hgranted]
      obtain ⟨hburst, -, hwindows⟩ := hfits.mp hgranted
      rw [hone]
      rcases hsince with hzero | ⟨e, rest, hsuffix, hea, hle⟩
      · rw [hzero]
        linarith
      · have hwindow := hwindows e rest hsuffix
        have hlength : (r.time - e.time) * rate ≤ (b - a) * rate := mul_le_mul_of_nonneg_right (by linarith) hrate
        linarith
    · have hnone : spentIn a b [(⟨r, granted⟩ : Entry K)] = 0 := by
        rw [spentIn_cons]
        by_cases hin : a ≤ r.time ∧ r.time ≤ b
        · have hrefused : granted = false := by simpa [hin] using hcounts
          simp [spentIn, Entry.spent, hrefused]
        · rw [if_neg hin, zero_add]
          rfl
      rw [hnone, add_zero]
      exact hold

/-! ### Requests in the order of time -/

/-- The requests are made one after another, `last` after all of them. -/
def InOrder (created : K) (requests : List (Request K)) (last : K) : Prop :=
  (created :: (requests.map Request.time ++ [last])).Pairwise (· ≤ ·)

lemma spent_le_spentIn {history : List (Entry K)} (h : ∀ e ∈ history, 0 ≤ e.spent) {suffix : List (Entry K)}
    (hsuffix : suffix <:+ history) {a b : K} (hin : ∀ e ∈ suffix, a ≤ e.time ∧ e.time ≤ b) :
    spent suffix ≤ spentIn a b history := by
  obtain ⟨before, rfl⟩ := hsuffix
  have hall : suffix.filter (fun e => a ≤ e.time ∧ e.time ≤ b) = suffix := by
    rw [List.filter_eq_self]
    intro e he
    exact decide_eq_true (hin e he)
  have hbefore : 0 ≤ spent (before.filter (fun e => a ≤ e.time ∧ e.time ≤ b)) := by
    apply List.sum_nonneg
    intro x hx
    obtain ⟨e, he, rfl⟩ := List.mem_map.mp hx
    exact h e (List.mem_append_left _ (List.mem_of_mem_filter he))
  rw [spentIn, List.filter_append, spent_append, hall]
  exact le_add_of_nonneg_left hbefore

/-- A request is granted if and only if no interval that ends with it would then see more spent than
the capacity and the refill of its length. -/
theorem take_iff_intervals (hrate : 0 ≤ rate) {requests : List (Request K)} {r : Request K}
    (hcosts : ∀ q ∈ requests, 0 ≤ q.cost) (horder : InOrder created requests r.time) :
    (((full capacity rate created).after requests).take r).1 = true ↔
      ∀ a, created ≤ a → a ≤ r.time →
        spentIn a r.time ((full capacity rate created).log requests) + r.cost ≤ capacity + (r.time - a) * rate := by
  rw [take_iff]
  have hnonneg : ∀ e ∈ (full capacity rate created).log requests, 0 ≤ e.spent := log_spent_nonneg hcosts
  have htimes := log_times (full capacity rate created) requests
  obtain ⟨hcreated, hrest⟩ := List.pairwise_cons.mp horder
  obtain ⟨hpairwise, -, hlast⟩ := List.pairwise_append.mp hrest
  rw [← htimes] at hcreated hpairwise hlast
  generalize (full capacity rate created).log requests = history at *
  have hbefore (e : Entry K) (he : e ∈ history) : e.time ≤ r.time :=
    hlast e.time (List.mem_map_of_mem he) r.time List.mem_cons_self
  constructor
  · rintro ⟨hburst, -, hwindows⟩ a hca har
    rcases spentIn_le_since hnonneg with hzero | ⟨e, rest, hsuffix, hae, hle⟩
    · rw [hzero, zero_add]
      exact hburst.trans (le_add_of_nonneg_right (mul_nonneg (sub_nonneg.mpr har) hrate))
    · have hlength : (r.time - e.time) * rate ≤ (r.time - a) * rate := mul_le_mul_of_nonneg_right (by linarith) hrate
      have hwindow := hwindows e rest hsuffix
      linarith
  · intro h
    refine ⟨?_, ?_, ?_⟩
    · have hnow := h r.time (hcreated r.time (List.mem_append_right _ List.mem_cons_self)) le_rfl
      have hnil : ∀ e ∈ ([] : List (Entry K)), r.time ≤ e.time ∧ e.time ≤ r.time := by simp
      have hspent := spent_le_spentIn hnonneg List.nil_suffix hnil
      rw [spent_nil] at hspent
      rw [sub_self, zero_mul, add_zero] at hnow
      linarith
    · have hsince := h created le_rfl (hcreated r.time (List.mem_append_right _ List.mem_cons_self))
      have hspent := spent_le_spentIn hnonneg List.suffix_rfl (fun e he =>
        ⟨hcreated e.time (List.mem_append_left _ (List.mem_map_of_mem he)), hbefore e he⟩)
      linarith
    · intro e rest hsuffix
      have he : e ∈ history := hsuffix.subset List.mem_cons_self
      have hsince := h e.time (hcreated e.time (List.mem_append_left _ (List.mem_map_of_mem he))) (hbefore e he)
      have hafter : ∀ f ∈ rest, e.time ≤ f.time := by
        have hsorted := hpairwise.sublist (hsuffix.sublist.map (fun e => e.time))
        rw [List.map_cons, List.pairwise_cons] at hsorted
        exact fun f hf => hsorted.1 f.time (List.mem_map_of_mem hf)
      have hspent : spent (e :: rest) ≤ spentIn e.time r.time history := by
        refine spent_le_spentIn hnonneg hsuffix (fun f hf => ⟨?_, hbefore f (hsuffix.subset hf)⟩)
        rcases List.mem_cons.mp hf with rfl | hf
        · exact le_rfl
        · exact hafter f hf
      linarith

end TokenBucket
