import CryptoTrader.Lib.DecimalText
import CryptoTrader.Lib.KeyedTable
import CryptoTrader.Lib.QueryString

/-!
# Signed requests

What `BinanceAdapter._signed_params` puts under the HMAC, the path `OKXAdapter._request` signs,
and the query string httpx sends: the parameters in insertion order, form-url-encoded. Both
adapters sign the parameters in the order of their keys and without escapes
(`signed_is_sent_iff`).
-/

namespace CryptoTrader

open QueryString KeyedTable

/-- A dict of parameters in insertion order, each value as its text. -/
abbrev Params := List (String × String)

/-- `params[key] = value`. -/
def setItem (key value : String) (params : Params) : Params :=
  upsert Prod.fst (key, value) params

namespace BinanceAdapter

/-- The parameters that are signed. -/
def stampedParams (timestamp : ℕ) (params : Params) : Params :=
  setItem "recvWindow" "10000" (setItem "timestamp" (toString timestamp) params)

def signedQuery (timestamp : ℕ) (params : Params) : String :=
  render (sortByKey (stampedParams timestamp params))

/-- `_signed_params`; `hmac` is the hexadecimal HMAC-SHA256 of a message under a secret. -/
def signedParams (hmac : String → String → String) (secret : String) (timestamp : ℕ) (params : Params) : Params :=
  setItem "signature" (hmac secret (signedQuery timestamp params)) (stampedParams timestamp params)

/-- The query string that is sent is the signed one and the signature. -/
def SignsSent (hmac : String → String → String) (secret : String) (timestamp : ℕ) (params : Params) : Prop :=
  urlencode (signedParams hmac secret timestamp params) =
    signedQuery timestamp params ++ "&" ++ field ("signature", quotePlus (hmac secret (signedQuery timestamp params)))

/-- The dict has a receive window and no signature, its keys are in order, with the timestamp
among them or after them, and no text that is kept needs an escape. -/
structure Signable (params : Params) : Prop where
  window : "recvWindow" ∈ params.map Prod.fst
  unsigned : "signature" ∉ params.map Prod.fst
  sorted : (params.map Prod.fst).Pairwise (· ≤ ·)
  stamped : "timestamp" ∈ params.map Prod.fst ∨ ∀ k ∈ params.map Prod.fst, k ≤ "timestamp"
  unescaped : ∀ p ∈ params, p.1 = "timestamp" ∨ p.1 = "recvWindow" ∨ Unescaped p.1 ∧ Unescaped p.2

end BinanceAdapter

namespace OkxAdapter

def canonicalQueryString (params : Params) : String :=
  if params = [] then "" else render (sortByKey params)

/-- The path that is signed. -/
def requestPath (path : String) (params : Params) : String :=
  let query := canonicalQueryString params
  if query = "" then path else path ++ "?" ++ query

/-- The path and query that are sent. -/
def sentPath (path : String) (params : Params) : String :=
  if params = [] then path else path ++ "?" ++ urlencode params

end OkxAdapter

/-! ### The order and the escapes -/

lemma unescaped_toString (n : ℕ) : Unescaped (toString n) := by
  intro c hc
  have hdigit : c.isDigit = true := by
    apply Decimal.allDigits_toDigits n
    simpa using hc
  simp [isUnreserved, Char.isAlphanum, hdigit]

lemma keys_setItem (key value : String) (params : Params) : (setItem key value params).map Prod.fst =
    if key ∈ params.map Prod.fst then params.map Prod.fst else params.map Prod.fst ++ [key] :=
  map_key_upsert Prod.fst (key, value) params

lemma mem_keys_setItem {key value k : String} {params : Params} :
    k ∈ (setItem key value params).map Prod.fst ↔ k = key ∨ k ∈ params.map Prod.fst :=
  mem_map_key_upsert

lemma setItem_ne_nil (key value : String) (params : Params) : setItem key value params ≠ [] := by
  have hmem : key ∈ (setItem key value params).map Prod.fst := mem_keys_setItem.mpr (.inl rfl)
  intro hnil
  rw [hnil] at hmem
  exact absurd hmem List.not_mem_nil

namespace BinanceAdapter

variable {timestamp : ℕ} {params : Params}

lemma mem_stampedParams {p : String × String} : p ∈ stampedParams timestamp params ↔
    p = ("recvWindow", "10000") ∨ p = ("timestamp", toString timestamp) ∨
      p ∈ params ∧ p.1 ≠ "timestamp" ∧ p.1 ≠ "recvWindow" := by
  rw [stampedParams, setItem, setItem, mem_upsert_iff, mem_upsert_iff]
  constructor
  · rintro (h | ⟨h | ⟨hp, ht⟩, hr⟩)
    · exact .inl h
    · exact .inr (.inl h)
    · exact .inr (.inr ⟨hp, ht, hr⟩)
  · rintro (h | h | ⟨hp, ht, hr⟩)
    · exact .inl h
    · subst h
      exact .inr ⟨.inl rfl, by simp⟩
    · exact .inr ⟨.inr ⟨hp, ht⟩, hr⟩

variable (timestamp params) in
lemma unescaped_stampedParams :
    (∀ p ∈ stampedParams timestamp params, Unescaped p.1 ∧ Unescaped p.2) ↔
      ∀ p ∈ params, p.1 = "timestamp" ∨ p.1 = "recvWindow" ∨ Unescaped p.1 ∧ Unescaped p.2 := by
  constructor
  · intro h p hp
    by_cases ht : p.1 = "timestamp"
    · exact .inl ht
    · by_cases hr : p.1 = "recvWindow"
      · exact .inr (.inl hr)
      · exact .inr (.inr (h p (mem_stampedParams.mpr (.inr (.inr ⟨hp, ht, hr⟩)))))
  · intro h p hp
    rcases mem_stampedParams.mp hp with rfl | rfl | ⟨hp, ht, hr⟩
    · exact ⟨by decide, by decide⟩
    · have hkey : Unescaped "timestamp" := by decide
      exact ⟨hkey, unescaped_toString timestamp⟩
    · exact ((h p hp).resolve_left ht).resolve_left hr

/-- The receive window is put after the timestamp, unless the dict has one. -/
lemma sorted_stampedParams : ((stampedParams timestamp params).map Prod.fst).Pairwise (· ≤ ·) ↔
    "recvWindow" ∈ params.map Prod.fst ∧ (params.map Prod.fst).Pairwise (· ≤ ·) ∧
      ("timestamp" ∈ params.map Prod.fst ∨ ∀ k ∈ params.map Prod.fst, k ≤ "timestamp") := by
  have hmem : "timestamp" ∈ (setItem "timestamp" (toString timestamp) params).map Prod.fst :=
    mem_keys_setItem.mpr (.inl rfl)
  rw [stampedParams, keys_setItem]
  by_cases hwindow : "recvWindow" ∈ params.map Prod.fst
  · rw [if_pos (mem_keys_setItem.mpr (.inr hwindow)), keys_setItem, and_iff_right hwindow]
    by_cases hstamp : "timestamp" ∈ params.map Prod.fst
    · rw [if_pos hstamp, and_iff_left (.inl hstamp)]
    · rw [if_neg hstamp, List.pairwise_append, or_iff_right hstamp]
      simp
  · have hnot : "recvWindow" ∉ (setItem "timestamp" (toString timestamp) params).map Prod.fst := by
      rw [mem_keys_setItem, not_or]
      exact ⟨by simp, hwindow⟩
    rw [if_neg hnot, List.pairwise_append]
    constructor
    · intro h
      exact absurd (h.2.2 _ hmem _ (List.mem_singleton_self _)) (by decide)
    · intro h
      exact absurd h.1 hwindow

variable (timestamp) in
lemma mem_keys_stampedParams {k : String} (hr : k ≠ "recvWindow") (ht : k ≠ "timestamp") :
    k ∈ (stampedParams timestamp params).map Prod.fst ↔ k ∈ params.map Prod.fst := by
  rw [stampedParams, mem_keys_setItem, mem_keys_setItem, or_iff_right hr, or_iff_right ht]

/-- A signature that is replaced is not at the end. -/
lemma not_signsSent_of_mem {hmac : String → String → String} {secret : String}
    (h : "signature" ∈ params.map Prod.fst) : ¬ SignsSent hmac secret timestamp params := by
  intro hsent
  have hmem := (mem_keys_stampedParams timestamp (by decide) (by decide)).mpr h
  have hlength : (signedParams hmac secret timestamp params).length = (stampedParams timestamp params).length := by
    rw [signedParams, setItem, upsert, if_pos hmem, put, List.length_map]
  have hne : stampedParams timestamp params ≠ [] := setItem_ne_nil _ _ _
  have hsigned : signedParams hmac secret timestamp params ≠ [] := setItem_ne_nil _ _ _
  have hcount := count_of_separable (separable_quoted (signedParams hmac secret timestamp params)) (by simpa using hsigned)
  have hle := length_le_count (sortByKey_ne_nil hne)
  have hchars := congrArg (fun s => List.count '&' ('&' :: s.toList)) hsent
  rw [(sortByKey_perm _).length_eq] at hle
  rw [List.length_map, hlength] at hcount
  simp only [urlencode, signedQuery, String.toList_append] at hchars
  rw [hcount] at hchars
  simp only [List.count_cons, List.count_append] at hchars hle
  simp at hchars hle
  omega

lemma signsSent_iff (hmac : String → String → String) (secret : String) (timestamp : ℕ) (params : Params) :
    SignsSent hmac secret timestamp params ↔ Signable params := by
  by_cases hsig : "signature" ∈ params.map Prod.fst
  · exact ⟨fun h => absurd h (not_signsSent_of_mem hsig), fun h => absurd hsig h.unsigned⟩
  · have hnot := mt (mem_keys_stampedParams timestamp (by decide) (by decide)).mp hsig
    have hne : stampedParams timestamp params ≠ [] := setItem_ne_nil _ _ _
    have hname : quotePlus "signature" = "signature" := quotePlus_of_unescaped (by decide)
    rw [SignsSent, signedParams, setItem, upsert, if_neg hnot, urlencode, List.map_append, List.map_singleton,
      render_append_singleton (by simpa using hne), hname, signedQuery]
    have hsplit : urlencode (stampedParams timestamp params) = render (sortByKey (stampedParams timestamp params)) ↔
        Signable params := by
      rw [eq_comm, render_sortByKey_eq_urlencode_iff, sorted_stampedParams, unescaped_stampedParams]
      constructor
      · rintro ⟨⟨hwindow, hsorted, hstamped⟩, hunescaped⟩
        exact ⟨hwindow, hsig, hsorted, hstamped, hunescaped⟩
      · intro h
        exact ⟨⟨h.window, h.sorted, h.stamped⟩, h.unescaped⟩
    rw [← hsplit, String.append_left_inj, String.append_left_inj]
    rfl

end BinanceAdapter

namespace OkxAdapter

lemma requestPath_of_ne_nil {params : Params} (path : String) (hne : params ≠ []) :
    requestPath path params = path ++ "?" ++ render (sortByKey params) := by
  rw [requestPath, canonicalQueryString, if_neg hne]
  exact if_neg (render_ne_empty (sortByKey_ne_nil hne))

lemma requestPath_eq_sentPath_iff (path : String) (params : Params) :
    requestPath path params = sentPath path params ↔
      (params.map Prod.fst).Pairwise (· ≤ ·) ∧ ∀ p ∈ params, Unescaped p.1 ∧ Unescaped p.2 := by
  rcases eq_or_ne params [] with rfl | hne
  · simp [requestPath, sentPath, canonicalQueryString]
  · rw [requestPath_of_ne_nil path hne, sentPath, if_neg hne, String.append_right_inj,
      render_sortByKey_eq_urlencode_iff]

end OkxAdapter

/-- What is signed is what is sent: for Binance exactly if the dict brings its own receive window
and is signable, for OKX exactly if the keys are in order and no text needs an escape. -/
theorem signed_is_sent_iff (hmac : String → String → String) (secret path : String) (timestamp : ℕ)
    (params : Params) :
    (BinanceAdapter.SignsSent hmac secret timestamp params ↔ BinanceAdapter.Signable params) ∧
      (OkxAdapter.requestPath path params = OkxAdapter.sentPath path params ↔
        (params.map Prod.fst).Pairwise (· ≤ ·) ∧ ∀ p ∈ params, Unescaped p.1 ∧ Unescaped p.2) :=
  ⟨BinanceAdapter.signsSent_iff hmac secret timestamp params, OkxAdapter.requestPath_eq_sentPath_iff path params⟩

lemma BinanceAdapter.stampedParams_nil (timestamp : ℕ) :
    stampedParams timestamp [] = [("timestamp", toString timestamp), ("recvWindow", "10000")] := by
  simp [stampedParams, setItem, upsert]

lemma BinanceAdapter.signedQuery_nil (timestamp : ℕ) :
    signedQuery timestamp [] = "recvWindow=10000&timestamp=" ++ toString timestamp := by
  have hsort : sortByKey [("timestamp", toString timestamp), ("recvWindow", "10000")] =
      [("recvWindow", "10000"), ("timestamp", toString timestamp)] := by
    simp [sortByKey, List.mergeSort, List.MergeSort.Internal.splitInTwo]
  rw [signedQuery, stampedParams_nil, hsort]
  rfl

/-- The Binance account is asked for without parameters, and the timestamp is sent first and
signed last; an OKX order is asked for by a client id with a space. -/
theorem account_request_not_sent_as_signed :
    (∀ hmac secret timestamp, ¬ BinanceAdapter.SignsSent hmac secret timestamp []) ∧
      (∀ timestamp, BinanceAdapter.signedQuery timestamp [] = "recvWindow=10000&timestamp=" ++ toString timestamp) ∧
      (∀ timestamp, urlencode (BinanceAdapter.stampedParams timestamp []) =
        "timestamp=" ++ toString timestamp ++ "&recvWindow=10000") ∧
      OkxAdapter.requestPath "/api/v5/trade/order" [("instId", "BTC-USDT-SWAP"), ("ordId", "my order")] ≠
        OkxAdapter.sentPath "/api/v5/trade/order" [("instId", "BTC-USDT-SWAP"), ("ordId", "my order")] := by
  refine ⟨?_, ?_, ?_, ?_⟩
  · intro hmac secret timestamp h
    exact absurd ((BinanceAdapter.signsSent_iff hmac secret timestamp []).mp h).window List.not_mem_nil
  · exact BinanceAdapter.signedQuery_nil
  · intro timestamp
    have hunescaped := (BinanceAdapter.unescaped_stampedParams timestamp []).mpr (by simp)
    rw [urlencode_of_unescaped hunescaped, BinanceAdapter.stampedParams_nil]
    apply String.toList_inj.mp
    simp [render, field]
  · intro h
    have hescape := ((OkxAdapter.requestPath_eq_sentPath_iff _ _).mp h).2 ("ordId", "my order") (by simp)
    exact absurd hescape.2 (by decide)

end CryptoTrader
