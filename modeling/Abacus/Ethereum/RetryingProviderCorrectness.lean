import Abacus.Ethereum.RetryingProvider
import Mathlib.Data.Nat.Find

/-!
# Attempts and backoffs of a request

A request is dispatched up to its last attempt, with a sleep between any two
attempts, as long as the backoff fits into 64 bits. A method that is not to be
retried is dispatched again only after an error of the connection or a response
that cannot be parsed.
-/

namespace Abacus

namespace RetryingProvider

open Retry (IsLast delay delays)

variable {ε R Params : Type}

/-- A response that ends a request: a result, or a JSON-RPC error of a method
that is not to be retried. -/
def Terminal (method : String) : Except (HttpClientError ε) R → Prop
  | .ok _ => True
  | .error (.jsonRpcError _) => methodsToNotRetry.contains method = true
  | .error _ => False

/-- The result of a request whose last response is given. -/
def finalResult (method : String) :
    Except (HttpClientError ε) R → Except (RetryingProviderError ε) R
  | .ok res => .ok res
  | .error (.jsonRpcError error) =>
      if methodsToNotRetry.contains method then
        .error (.jsonRpcClientError (.jsonRpcError error))
      else .error (.maxRequests (.jsonRpcError error))
  | .error error => .error (.maxRequests error)

/-- The last attempt of a request: the first one with a terminal response, or
the maximum. -/
def IsLastAttempt (provider : RetryingProvider) (method : String)
    (responses : Nat → Except (HttpClientError ε) R) (last : Nat) : Prop :=
  IsLast (fun attempt => Terminal method (responses attempt))
    provider.maxRequests.toNat last

/-- The backoffs of all attempts fit into 64 bits. -/
def BackoffFits (provider : RetryingProvider) (method : String)
    (responses : Nat → Except (HttpClientError ε) R) : Prop :=
  ∀ last, provider.IsLastAttempt method responses last →
    delay provider.baseRetryMs.toNat last < 2 ^ 64

/-- Every request has a last attempt. -/
theorem exists_isLastAttempt
    (provider : RetryingProvider)
    (method : String)
    (responses : Nat → Except (HttpClientError ε) R) :
    ∃ last, provider.IsLastAttempt method responses last :=
  Retry.exists_isLast _
    (UInt32.le_iff_toNat_le.mp provider.maxRequests_pos)

/-- A last attempt is the only one. -/
theorem isLastAttempt_iff_eq
    {provider : RetryingProvider}
    {method : String}
    {responses : Nat → Except (HttpClientError ε) R}
    {last : Nat}
    (isLast : provider.IsLastAttempt method responses last)
    (attempt : Nat) :
    provider.IsLastAttempt method responses attempt ↔ attempt = last := by
  constructor
  · exact fun other => other.unique isLast
  · rintro rfl
    exact isLast

/-! ## One attempt -/

/-- The backoff of an attempt is its delay, unless it overflows. -/
theorem backoffMs_eq
    (provider : RetryingProvider)
    {i : UInt32}
    (first : 1 ≤ i.toNat) :
    (provider.backoffMs i : Except (Fault ε) UInt64) =
      if delay provider.baseRetryMs.toNat i.toNat < 2 ^ 64 then
        .ok (UInt64.ofNat (delay provider.baseRetryMs.toNat i.toNat))
      else .error (.panic .overflow) := by
  have one : 1 ≤ i := UInt32.le_iff_toNat_le.mpr first
  have exponent : (i - 1).toNat = i.toNat - 1 :=
    UInt32.toNat_sub_of_le _ _ one
  have base : 1 ≤ provider.baseRetryMs.toNat :=
    UInt64.le_iff_toNat_le.mp provider.baseRetryMs_pos
  have subtracted : (checkedSub i 1 : Except (Fault ε) UInt32) =
      .ok (i - 1) := if_pos one
  unfold backoffMs delay
  rw [subtracted]
  change (powTwo (i - 1) >>= fun factor =>
    checkedMul provider.baseRetryMs factor) = _
  by_cases power : 2 ^ (i.toNat - 1) < 2 ^ 64
  · have factor : (UInt64.ofNat (2 ^ (i.toNat - 1))).toNat =
        2 ^ (i.toNat - 1) := UInt64.toNat_ofNat_of_lt' power
    unfold powTwo
    rw [exponent, if_pos power]
    change checkedMul provider.baseRetryMs _ = _
    unfold checkedMul
    rw [factor, UInt64.ofNat_mul, UInt64.ofNat_toNat]
  · have large : ¬ provider.baseRetryMs.toNat * 2 ^ (i.toNat - 1) <
        2 ^ 64 := by
      have scaled := Nat.mul_le_mul_right (2 ^ (i.toNat - 1)) base
      omega
    unfold powTwo
    rw [exponent, if_neg power, if_neg large]
    rfl

/-- A terminal response ends the request. -/
theorem settle_of_terminal
    {method : String}
    {response : Except (HttpClientError ε) R}
    (terminal : Terminal method response)
    (provider : RetryingProvider)
    (i : UInt32) :
    provider.settle method i response =
      .done ((finalResult method response).mapError Fault.error) := by
  match response with
  | .ok res => rfl
  | .error (.jsonRpcError error) =>
      have listed : methodsToNotRetry.contains method = true := terminal
      rw [settle, finalResult, if_pos listed, if_pos listed]
      rfl
  | .error (.reqwestError error) => exact terminal.elim
  | .error (.serdeJson error text) => exact terminal.elim

/-- Any other response is remembered as an error, up to the maximum. -/
theorem settle_of_not_terminal
    {method : String}
    {response : Except (HttpClientError ε) R}
    (more : ¬ Terminal method response)
    (provider : RetryingProvider)
    {i : UInt32}
    (inside : i ≤ provider.maxRequests) :
    ∃ lastErr, provider.settle method i response = .retry lastErr ∧
      finalResult method response = .error (.maxRequests lastErr) := by
  match response with
  | .ok res => exact (more trivial).elim
  | .error (.jsonRpcError error) =>
      refine ⟨.jsonRpcError error, if_neg more, if_neg more⟩
  | .error (.reqwestError error) =>
      refine ⟨.reqwestError error, ?_, rfl⟩
      rw [settle, checkedSub, if_pos inside]
  | .error (.serdeJson error text) => exact ⟨_, rfl, rfl⟩

/-! ## One step of the loop -/

section Steps

variable (provider : RetryingProvider) (method : String)
variable (params : Option Params)
variable (responses : Nat → Except (HttpClientError ε) R)

/-- The loop from an attempt with a number. -/
def requestAt (attempt : Nat) :
    List (Action Params) × Except (Fault (RetryingProviderError ε)) R :=
  provider.requestFrom method params responses (UInt32.ofNat attempt)

variable {provider method responses}
variable {attempt : Nat}

/-- A delay that fits is that of one of the first 64 attempts. -/
theorem lt_of_delay_lt
    (fits : delay provider.baseRetryMs.toNat attempt < 2 ^ 64) :
    attempt ≤ 64 := by
  have base : 1 ≤ provider.baseRetryMs.toNat :=
    UInt64.le_iff_toNat_le.mp provider.baseRetryMs_pos
  have power : 2 ^ (attempt - 1) < 2 ^ 64 := by
    have scaled := Nat.mul_le_mul_right (2 ^ (attempt - 1)) base
    unfold delay at fits
    omega
  have below := (Nat.pow_lt_pow_iff_right (by decide)).mp power
  omega

/-- Numbers of 32 bits are numbered by themselves. -/
theorem toNat_ofNat_attempt (small : attempt < 2 ^ 32) :
    (UInt32.ofNat attempt).toNat = attempt :=
  UInt32.toNat_ofNat_of_lt' small

/-- The number of the next attempt. -/
theorem checkedAdd_ofNat_one
    {δ : Type}
    (early : attempt ≤ 64) :
    (checkedAdd (UInt32.ofNat attempt) 1 : Except (Fault δ) UInt32) =
      .ok (UInt32.ofNat (attempt + 1)) := by
  have number : (UInt32.ofNat attempt).toNat = attempt :=
    toNat_ofNat_attempt (by omega)
  have one : UInt32.toNat 1 = 1 := rfl
  unfold checkedAdd
  rw [number, one, if_pos (by omega), UInt32.ofNat_add]
  rfl

/-- An attempt whose delay overflows panics before it is dispatched. -/
theorem requestAt_of_overflow
    (first : 1 ≤ attempt)
    (small : attempt < 2 ^ 32)
    (overflow : 2 ^ 64 ≤ delay provider.baseRetryMs.toNat attempt) :
    provider.requestAt method params responses attempt =
      ([], .error (.panic .overflow)) := by
  have number := toNat_ofNat_attempt small
  unfold requestAt requestFrom
  rw [backoffMs_eq provider (by rwa [number]), number,
    if_neg (Nat.not_lt.mpr overflow)]

/-- An attempt with a terminal response is dispatched, and its result is
returned. -/
theorem requestAt_of_terminal
    (first : 1 ≤ attempt)
    (small : attempt < 2 ^ 32)
    (fits : delay provider.baseRetryMs.toNat attempt < 2 ^ 64)
    (terminal : Terminal method (responses attempt)) :
    provider.requestAt method params responses attempt =
      ([.dispatch method params],
        (finalResult method (responses attempt)).mapError Fault.error) := by
  have number := toNat_ofNat_attempt small
  unfold requestAt requestFrom
  rw [backoffMs_eq provider (by rwa [number]), number, if_pos fits,
    settle_of_terminal terminal]

/-- Any other attempt is dispatched, and the provider sleeps before the next
one if there is one. -/
theorem requestAt_of_not_terminal
    (first : 1 ≤ attempt)
    (inside : attempt ≤ provider.maxRequests.toNat)
    (fits : delay provider.baseRetryMs.toNat attempt < 2 ^ 64)
    (more : ¬ Terminal method (responses attempt)) :
    provider.requestAt method params responses attempt =
      if attempt < provider.maxRequests.toNat then
        (.dispatch method params ::
          .sleep (UInt64.ofNat (delay provider.baseRetryMs.toNat attempt)) ::
            (provider.requestAt method params responses (attempt + 1)).1,
          (provider.requestAt method params responses (attempt + 1)).2)
      else
        ([.dispatch method params],
          (finalResult method (responses attempt)).mapError Fault.error) := by
  have number := toNat_ofNat_attempt
    (Nat.lt_of_le_of_lt inside provider.maxRequests.toNat_lt)
  have atMost : UInt32.ofNat attempt ≤ provider.maxRequests :=
    UInt32.le_iff_toNat_le.mpr (by rwa [number])
  obtain ⟨lastErr, settled, result⟩ :=
    settle_of_not_terminal more provider atMost
  rw [requestAt, requestFrom, backoffMs_eq provider (by rwa [number]), number,
    if_pos fits, result]
  simp only
  rw [settled]
  simp only
  split
  · rename_i fault overflow
    cases (checkedAdd_ofNat_one (lt_of_delay_lt fits)).symm.trans overflow
  · rename_i next added
    cases (checkedAdd_ofNat_one (lt_of_delay_lt fits)).symm.trans added
    have early := lt_of_delay_lt fits
    have nextNumber : (UInt32.ofNat (attempt + 1)).toNat = attempt + 1 :=
      toNat_ofNat_attempt (by omega)
    have again : UInt32.ofNat (attempt + 1) ≤ provider.maxRequests ↔
        attempt < provider.maxRequests.toNat := by
      rw [UInt32.le_iff_toNat_le, nextNumber]
      rfl
    simp only [again]
    rfl

/-- The last attempt is dispatched, and its result is returned. -/
theorem requestAt_last
    (first : 1 ≤ attempt)
    (inside : attempt ≤ provider.maxRequests.toNat)
    (fits : delay provider.baseRetryMs.toNat attempt < 2 ^ 64)
    (last : Terminal method (responses attempt) ∨
      attempt = provider.maxRequests.toNat) :
    provider.requestAt method params responses attempt =
      ([.dispatch method params],
        (finalResult method (responses attempt)).mapError Fault.error) := by
  by_cases terminal : Terminal method (responses attempt)
  · exact requestAt_of_terminal params first
      (Nat.lt_of_le_of_lt inside provider.maxRequests.toNat_lt) fits terminal
  · have limit := last.resolve_left terminal
    rw [requestAt_of_not_terminal params first inside fits terminal,
      if_neg (by omega)]

/-- An earlier attempt is dispatched, and the provider sleeps before the
next one. -/
theorem requestAt_retry
    (first : 1 ≤ attempt)
    (below : attempt < provider.maxRequests.toNat)
    (fits : delay provider.baseRetryMs.toNat attempt < 2 ^ 64)
    (more : ¬ Terminal method (responses attempt)) :
    provider.requestAt method params responses attempt =
      (.dispatch method params ::
        .sleep (UInt64.ofNat (delay provider.baseRetryMs.toNat attempt)) ::
          (provider.requestAt method params responses (attempt + 1)).1,
        (provider.requestAt method params responses (attempt + 1)).2) := by
  rw [requestAt_of_not_terminal params first (Nat.le_of_lt below) fits more,
    if_pos below]

end Steps

/-! ## Traces -/

/-- The requests that are dispatched. -/
def dispatches (actions : List (Action Params)) :
    List (String × Option Params) :=
  actions.filterMap fun
    | .dispatch method params => some (method, params)
    | .sleep _ => none

/-- The delays that the provider sleeps. -/
def sleeps (actions : List (Action Params)) : List UInt64 :=
  actions.filterMap fun
    | .dispatch _ _ => none
    | .sleep ms => some ms

section Traces

variable (provider : RetryingProvider) (method : String)
variable (params : Option Params)

/-- A number of attempts, each with the sleep after it. -/
def retried (first count : Nat) : List (Action Params) :=
  (List.range' first count).flatMap fun attempt =>
    [.dispatch method params,
      .sleep (UInt64.ofNat (delay provider.baseRetryMs.toNat attempt))]

theorem retried_succ (first count : Nat) :
    provider.retried method params first (count + 1) =
      .dispatch method params ::
        .sleep (UInt64.ofNat (delay provider.baseRetryMs.toNat first)) ::
          provider.retried method params (first + 1) count := by
  rw [retried, List.range'_succ, List.flatMap_cons, retried]
  rfl

/-- Every attempt is dispatched with the same parameters. -/
theorem dispatches_retried (first count : Nat) :
    dispatches (provider.retried method params first count) =
      List.replicate count (method, params) := by
  induction count generalizing first with
  | zero => rfl
  | succ count inductionHypothesis =>
      rw [retried_succ, List.replicate_succ, ← inductionHypothesis (first + 1)]
      rfl

/-- The delays after the attempts. -/
theorem sleeps_retried (first count : Nat) :
    sleeps (provider.retried method params first count) =
      (List.range' first count).map fun attempt =>
        UInt64.ofNat (delay provider.baseRetryMs.toNat attempt) := by
  induction count generalizing first with
  | zero => rfl
  | succ count inductionHypothesis =>
      rw [retried_succ, List.range'_succ, List.map_cons,
        ← inductionHypothesis (first + 1)]
      rfl

end Traces

/-! ## Runs -/

section Runs

variable (provider : RetryingProvider) {method : String}
variable (params : Option Params)
variable {responses : Nat → Except (HttpClientError ε) R}

/-- Attempts that are neither terminal nor at the maximum, and whose delays
fit, are dispatched one after the other. -/
theorem requestAt_retries
    {first target : Nat}
    (positive : 1 ≤ first)
    (ordered : first ≤ target)
    (inside : target ≤ provider.maxRequests.toNat)
    (fits : ∀ attempt, first ≤ attempt → attempt < target →
      delay provider.baseRetryMs.toNat attempt < 2 ^ 64)
    (more : ∀ attempt, first ≤ attempt → attempt < target →
      ¬ Terminal method (responses attempt)) :
    provider.requestAt method params responses first =
      (provider.retried method params first (target - first) ++
          (provider.requestAt method params responses target).1,
        (provider.requestAt method params responses target).2) := by
  refine Nat.decreasingInduction' (P := fun attempt =>
    provider.requestAt method params responses attempt =
      (provider.retried method params attempt (target - attempt) ++
          (provider.requestAt method params responses target).1,
        (provider.requestAt method params responses target).2))
    ?_ ordered ?_
  · intro attempt below above later
    have count : target - attempt = target - (attempt + 1) + 1 := by omega
    rw [requestAt_retry params (Nat.le_trans positive above) (by omega)
      (fits attempt above below) (more attempt above below), later, count,
      retried_succ]
    rfl
  · rw [Nat.sub_self]
    rfl

variable {provider}

/-- A request whose backoffs fit: all attempts up to the last one, and its
result. -/
theorem request_of_fits
    {last : Nat}
    (isLast : provider.IsLastAttempt method responses last)
    (fits : delay provider.baseRetryMs.toNat last < 2 ^ 64) :
    provider.request method params responses =
      (provider.retried method params 1 (last - 1) ++
          [.dispatch method params],
        (finalResult method (responses last)).mapError Fault.error) := by
  have retries := requestAt_retries provider params (Nat.le_refl 1)
    isLast.positive isLast.le_limit
    (fun attempt _ below => Nat.lt_of_le_of_lt
      (Retry.delay_mono _ (Nat.le_of_lt below)) fits)
    isLast.earlier
  rw [requestAt_last params isLast.positive isLast.le_limit fits
    isLast.stops] at retries
  exact retries

/-- The dispatches of a request whose backoffs fit. -/
theorem dispatches_request_of_fits
    {last : Nat}
    (isLast : provider.IsLastAttempt method responses last)
    (fits : delay provider.baseRetryMs.toNat last < 2 ^ 64) :
    dispatches (provider.request method params responses).1 =
      List.replicate last (method, params) := by
  rw [request_of_fits params isLast fits, dispatches, List.filterMap_append,
    ← dispatches, dispatches_retried]
  change List.replicate (last - 1) _ ++ List.replicate 1 _ = _
  rw [List.replicate_append_replicate, Nat.sub_add_cancel isLast.positive]

/-- The sleeps of a request whose backoffs fit. -/
theorem sleeps_request_of_fits
    {last : Nat}
    (isLast : provider.IsLastAttempt method responses last)
    (fits : delay provider.baseRetryMs.toNat last < 2 ^ 64) :
    sleeps (provider.request method params responses).1 =
      (delays provider.baseRetryMs.toNat (last - 1)).map UInt64.ofNat := by
  rw [request_of_fits params isLast fits, sleeps, List.filterMap_append,
    ← sleeps, sleeps_retried, delays, List.map_map]
  exact List.append_nil _

/-- A request one of whose backoffs overflows: the attempts before the first
overflow, and a panic. -/
theorem request_of_overflow
    {last : Nat}
    (isLast : provider.IsLastAttempt method responses last)
    (overflow : 2 ^ 64 ≤ delay provider.baseRetryMs.toNat last) :
    ∃ made, made < last ∧
      delay provider.baseRetryMs.toNat made < 2 ^ 64 ∧
      2 ^ 64 ≤ delay provider.baseRetryMs.toNat (made + 1) ∧
      provider.request method params responses =
        (provider.retried method params 1 made,
          .error (.panic .overflow)) := by
  -- The first attempt whose delay overflows is neither the first nor behind
  -- the last one.
  have some : ∃ attempt, 2 ^ 64 ≤ delay provider.baseRetryMs.toNat attempt :=
    ⟨last, overflow⟩
  have found := Nat.find_spec some
  have inside := Nat.find_min' some overflow
  have earlier : ∀ attempt, attempt < Nat.find some →
      delay provider.baseRetryMs.toNat attempt < 2 ^ 64 :=
    fun attempt below => Nat.not_le.mp (Nat.find_min some below)
  generalize Nat.find some = attempt at found inside earlier
  have behind : 2 ≤ attempt := by
    by_contra early
    have base := provider.baseRetryMs.toNat_lt
    have exponent : attempt - 1 = 0 := by omega
    rw [delay, exponent, Nat.pow_zero, Nat.mul_one] at found
    omega
  have limit := isLast.le_limit
  have maximum := provider.maxRequests.toNat_lt
  have retries := requestAt_retries provider params (Nat.le_refl 1)
    (by omega) (by omega : attempt ≤ _)
    (fun other _ below => earlier other below)
    (fun other first below => isLast.earlier other first (by omega))
  rw [requestAt_of_overflow params (by omega) (by omega) found,
    List.append_nil] at retries
  obtain ⟨made, rfl⟩ : ∃ made, attempt = made + 1 := ⟨attempt - 1, by omega⟩
  exact ⟨made, by omega, earlier made (by omega), found, retries⟩

/-! ## Requests -/

/-- What a request with fitting backoffs does: it is dispatched once for every
attempt, it sleeps between any two of them, it returns the result of the last
one, and the number of remaining retries is never negative. -/
structure Completes (provider : RetryingProvider) (method : String)
    (params : Option Params)
    (responses : Nat → Except (HttpClientError ε) R) (last : Nat) :
    Prop where
  dispatched : dispatches (provider.request method params responses).1 =
    List.replicate last (method, params)
  slept : (sleeps (provider.request method params responses).1).length =
    last - 1
  returned : (provider.request method params responses).2 =
    (finalResult method (responses last)).mapError Fault.error
  remaining : ∀ i : UInt32, i.toNat ≤ last →
    ∃ retries, (checkedSub provider.maxRequests i :
      Except (Fault (RetryingProviderError ε)) UInt32) = .ok retries

/-- A request whose backoffs fit is dispatched up to its last attempt. -/
theorem exists_completes
    (fits : provider.BackoffFits method responses) :
    ∃ last,
      (∀ attempt, provider.IsLastAttempt method responses attempt ↔
        attempt = last) ∧
      Completes provider method params responses last := by
  obtain ⟨last, isLast⟩ := exists_isLastAttempt provider method responses
  have lastFits := fits last isLast
  refine ⟨last, isLastAttempt_iff_eq isLast, ?_, ?_, ?_, ?_⟩
  · exact dispatches_request_of_fits params isLast lastFits
  · rw [sleeps_request_of_fits params isLast lastFits, List.length_map,
      Retry.length_delays]
  · rw [request_of_fits params isLast lastFits]
  · intro i inside
    have below : i ≤ provider.maxRequests :=
      UInt32.le_iff_toNat_le.mpr (Nat.le_trans inside isLast.le_limit)
    exact ⟨_, if_pos below⟩

/-- What the backoffs of a request do: none of them overflows, and the delays
are increasing. -/
structure BacksOff (provider : RetryingProvider) (method : String)
    (params : Option Params)
    (responses : Nat → Except (HttpClientError ε) R) : Prop where
  fits : (provider.request method params responses).2 ≠
    .error (.panic .overflow)
  increasing : (sleeps (provider.request method params responses).1).Pairwise
    (· < ·)

/-- The delays of a request are increasing and do not overflow exactly if the
one of its last attempt fits. -/
theorem backsOff_iff
    (provider : RetryingProvider)
    (method : String)
    (params : Option Params)
    (responses : Nat → Except (HttpClientError ε) R) :
    BacksOff provider method params responses ↔
      provider.BackoffFits method responses := by
  constructor
  · intro backsOff last isLast
    by_contra overflow
    obtain ⟨made, -, -, -, run⟩ :=
      request_of_overflow params isLast (Nat.not_lt.mp overflow)
    exact backsOff.fits (by rw [run])
  · intro fits
    obtain ⟨last, isLast⟩ := exists_isLastAttempt provider method responses
    have lastFits := fits last isLast
    refine ⟨?_, ?_⟩
    · rw [request_of_fits params isLast lastFits]
      cases finalResult method (responses last) <;> simp [Except.mapError]
    · have small : ∀ ms ∈ delays provider.baseRetryMs.toNat (last - 1),
          ms < 2 ^ 64 := by
        intro ms member
        obtain ⟨attempt, inside, rfl⟩ := List.mem_map.mp member
        have below := (List.mem_range'_1.mp inside).2
        exact Nat.lt_of_le_of_lt (Retry.delay_mono _ (by omega)) lastFits
      rw [sleeps_request_of_fits params isLast lastFits]
      refine List.pairwise_map.mpr ((Retry.pairwise_delays
        (UInt64.le_iff_toNat_le.mp provider.baseRetryMs_pos) _).imp_of_mem ?_)
      intro one two oneMember twoMember before
      rw [UInt64.lt_iff_toNat_lt,
        UInt64.toNat_ofNat_of_lt' (small one oneMember),
        UInt64.toNat_ofNat_of_lt' (small two twoMember)]
      exact before

/-! ## Methods that are not to be retried -/

/-- An error of the connection, or a response that cannot be parsed. -/
def Transient : Except (HttpClientError ε) R → Prop
  | .error (.reqwestError _) => True
  | .error (.serdeJson _ _) => True
  | _ => False

/-- For a method that is not to be retried, all other responses are
terminal. -/
theorem terminal_iff_not_transient
    (listed : method ∈ methodsToNotRetry)
    (response : Except (HttpClientError ε) R) :
    Terminal method response ↔ ¬ Transient response := by
  match response with
  | .ok res => simp [Terminal, Transient]
  | .error (.jsonRpcError error) => simp [Terminal, Transient, listed]
  | .error (.reqwestError error) => simp [Terminal, Transient]
  | .error (.serdeJson error text) => simp [Terminal, Transient]

/-- How often a request is dispatched: once for every attempt up to the last
one, or up to the one before the first overflow. -/
theorem length_dispatches_cases
    {last : Nat}
    (isLast : provider.IsLastAttempt method responses last) :
    let count :=
      (dispatches (provider.request method params responses).1).length
    count ≤ last ∧ delay provider.baseRetryMs.toNat count < 2 ^ 64 ∧
      (count = last ∨
        2 ^ 64 ≤ delay provider.baseRetryMs.toNat (count + 1)) := by
  intro count
  by_cases fits : delay provider.baseRetryMs.toNat last < 2 ^ 64
  · have same : count = last := by
      simp only [count, dispatches_request_of_fits params isLast fits,
        List.length_replicate]
    rw [same]
    exact ⟨Nat.le_refl last, fits, .inl rfl⟩
  · obtain ⟨made, below, madeFits, overflow, run⟩ :=
      request_of_overflow params isLast (Nat.not_lt.mp fits)
    have same : count = made := by
      simp only [count, run, dispatches_retried, List.length_replicate]
    rw [same]
    exact ⟨Nat.le_of_lt below, madeFits, .inr overflow⟩

/-- A method that is not to be retried is dispatched again only after an error
of the connection or a response that cannot be parsed. -/
theorem transient_of_dispatched_again
    (listed : method ∈ methodsToNotRetry)
    {attempt : Nat}
    (first : 1 ≤ attempt)
    (again : attempt <
      (dispatches (provider.request method params responses).1).length) :
    Transient (responses attempt) := by
  obtain ⟨last, isLast⟩ := exists_isLastAttempt provider method responses
  obtain ⟨upToLast, -, -⟩ := length_dispatches_cases params isLast
  have more := isLast.earlier attempt first
    (Nat.lt_of_lt_of_le again upToLast)
  rwa [terminal_iff_not_transient listed, not_not] at more

/-- A method that is not to be retried is dispatched at most once exactly if
one request is the maximum, the first response comes from the node, or the
second backoff overflows. -/
theorem length_dispatches_le_one_iff
    (listed : method ∈ methodsToNotRetry) :
    (dispatches (provider.request method params responses).1).length ≤ 1 ↔
      provider.maxRequests = 1 ∨ ¬ Transient (responses 1) ∨
        2 ^ 63 ≤ provider.baseRetryMs.toNat := by
  obtain ⟨last, isLast⟩ := exists_isLastAttempt provider method responses
  obtain ⟨upToLast, fits, reached⟩ := length_dispatches_cases params isLast
  have positive := isLast.positive
  have limit := isLast.le_limit
  have second : delay provider.baseRetryMs.toNat 2 =
      provider.baseRetryMs.toNat * 2 := rfl
  generalize (dispatches
    (provider.request method params responses).1).length = count at *
  constructor
  · intro once
    rcases reached with whole | overflow
    · have only : last = 1 := by omega
      subst only
      rcases isLast.stops with terminal | maximum
      · exact .inr (.inl ((terminal_iff_not_transient listed _).mp terminal))
      · exact .inl (UInt32.toNat_inj.mp maximum.symm)
    · have bound : delay provider.baseRetryMs.toNat (count + 1) ≤
          delay provider.baseRetryMs.toNat 2 :=
        Retry.delay_mono _ (Nat.succ_le_succ once)
      exact .inr (.inr (by omega))
  · intro once
    by_contra twice
    have bound : delay provider.baseRetryMs.toNat 2 ≤
        delay provider.baseRetryMs.toNat count :=
      Retry.delay_mono _ (Nat.not_le.mp twice)
    rcases once with maximum | node | large
    · rw [maximum] at limit
      have one : UInt32.toNat 1 = 1 := rfl
      omega
    · exact isLast.earlier 1 (Nat.le_refl 1) (by omega)
        ((terminal_iff_not_transient listed _).mpr node)
    · omega

/-- Transaction methods and repeated dispatches: a method that is not to be
retried is dispatched again only after a transient error, and whether that
happens depends on the first response and on the settings alone. -/
theorem dispatched_again_only_after_transient
    (provider : RetryingProvider)
    (listed : method ∈ methodsToNotRetry)
    (params : Option Params)
    (responses : Nat → Except (HttpClientError ε) R) :
    let count :=
      (dispatches (provider.request method params responses).1).length
    (∀ attempt, 1 ≤ attempt → attempt < count →
        Transient (responses attempt)) ∧
      (count ≤ 1 ↔ provider.maxRequests = 1 ∨ ¬ Transient (responses 1) ∨
        2 ^ 63 ≤ provider.baseRetryMs.toNat) :=
  ⟨fun _ first again => transient_of_dispatched_again params listed first
    again, length_dispatches_le_one_iff params listed⟩

end Runs

/-! ## Requests on fixed responses -/

/-- A lost reply, and then a result. -/
def lostReply : Nat → Except (HttpClientError Unit) Nat
  | 1 => .error (.reqwestError ())
  | _ => .ok 7

/-- The connection fails at every attempt. -/
def unreachable : Nat → Except (HttpClientError Unit) Nat :=
  fun _ => .error (.reqwestError ())

/-- A provider that makes three requests, 50 milliseconds apart at first. -/
def threeRequests : RetryingProvider := ⟨3, 50, by decide, by decide⟩

/-- The second response of three is the last one. -/
theorem isLastAttempt_lostReply (method : String) :
    threeRequests.IsLastAttempt method lostReply 2 where
  positive := by decide
  le_limit := by decide
  earlier attempt first below := by
    obtain rfl : attempt = 1 := by omega
    exact id
  stops := .inl trivial

/-- The backoffs of three attempts fit. -/
theorem backoffFits_threeRequests
    (method : String)
    (responses : Nat → Except (HttpClientError ε) R) :
    threeRequests.BackoffFits method responses := by
  intro last isLast
  have bound : delay 50 last ≤ delay 50 3 :=
    Retry.delay_mono 50 isLast.le_limit
  exact Nat.lt_of_le_of_lt bound (by decide)

theorem exists_completes_threeRequests :
    ∃ last,
      (∀ attempt, threeRequests.IsLastAttempt "eth_call" lostReply attempt ↔
        attempt = last) ∧
      Completes threeRequests "eth_call" (none : Option Unit) lostReply last :=
  exists_completes none (backoffFits_threeRequests "eth_call" lostReply)

theorem dispatched_again_lostReply :
    let count := (dispatches (threeRequests.request "eth_sendTransaction"
      (none : Option Unit) lostReply).1).length
    (∀ attempt, 1 ≤ attempt → attempt < count →
        Transient (lostReply attempt)) ∧
      (count ≤ 1 ↔ threeRequests.maxRequests = 1 ∨
        ¬ Transient (lostReply 1) ∨
          2 ^ 63 ≤ threeRequests.baseRetryMs.toNat) :=
  dispatched_again_only_after_transient threeRequests (by decide) none
    lostReply

/-- After a lost reply, a transaction is sent again. -/
theorem dispatches_lostReply :
    dispatches (threeRequests.request "eth_sendTransaction"
      (none : Option Unit) lostReply).1 =
        [("eth_sendTransaction", none), ("eth_sendTransaction", none)] := by
  rw [request_of_fits none (isLastAttempt_lostReply _) (by decide)]
  rfl

/-- With 65 requests, the backoff of the last one overflows. -/
theorem backsOff_unreachable :
    let provider : RetryingProvider := ⟨65, 1, by decide, by decide⟩
    (provider.request "eth_call" (none : Option Unit) unreachable).2 =
        .error (.panic .overflow) ∧
      ¬ BacksOff provider "eth_call" (none : Option Unit) unreachable := by
  intro provider
  have isLast : provider.IsLastAttempt "eth_call" unreachable 65 :=
    ⟨by decide, by decide, fun _ _ _ => id, .inr rfl⟩
  obtain ⟨made, -, -, -, run⟩ :=
    request_of_overflow (none : Option Unit) isLast (by decide)
  have panicked : (provider.request "eth_call" (none : Option Unit)
      unreachable).2 = .error (.panic .overflow) := by rw [run]
  exact ⟨panicked, fun backsOff => backsOff.fits panicked⟩

end RetryingProvider

end Abacus
