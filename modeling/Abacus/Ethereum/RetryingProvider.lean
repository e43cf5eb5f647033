import Abacus.Core.Primitives
import Abacus.Library.Retry

/-!
# The retrying JSON-RPC provider

A request is dispatched to the inner client until it succeeds, until an error
is not worth retrying, or until a maximum is reached. Between two attempts the
provider sleeps, each time twice as long.
-/

namespace Abacus

/-- Methods whose JSON-RPC errors are not retried. -/
def methodsToNotRetry : List String :=
  ["eth_estimateGas", "eth_sendTransaction", "eth_sendRawTransaction"]

/-- An error of the inner HTTP client. -/
inductive HttpClientError (ε : Type)
  | reqwestError (error : ε)
  | jsonRpcError (error : ε)
  | serdeJson (error : ε) (text : String)
  deriving DecidableEq

/-- An error of the retrying provider. -/
inductive RetryingProviderError (ε : Type)
  | jsonRpcClientError (error : HttpClientError ε)
  | maxRequests (error : HttpClientError ε)
  deriving DecidableEq

/-- A provider with a simple exponential backoff. Both settings are at least
one. -/
structure RetryingProvider where
  maxRequests : UInt32
  baseRetryMs : UInt64
  maxRequests_pos : 1 ≤ maxRequests
  baseRetryMs_pos : 1 ≤ baseRetryMs

namespace RetryingProvider

/-- A provider with two settings, unless one of the assertions fails. -/
def new (maxRequests : UInt32) (baseRetryMs : UInt64) :
    Option RetryingProvider :=
  if maxRequests_pos : 1 ≤ maxRequests then
    if baseRetryMs_pos : 1 ≤ baseRetryMs then
      some ⟨maxRequests, baseRetryMs, maxRequests_pos, baseRetryMs_pos⟩
    else none
  else none

/-- What the provider does: it dispatches a request with its parameters, where
`null` stands for none, or sleeps for a number of milliseconds. -/
inductive Action (Params : Type)
  | dispatch (method : String) (params : Option Params)
  | sleep (ms : UInt64)
  deriving DecidableEq

/-- How the match on the response of the inner client goes on. -/
inductive Settled (ε R : Type)
  | done (result : Except (Fault (RetryingProviderError ε)) R)
  | retry (lastErr : HttpClientError ε)

variable {ε R Params : Type}

/-- `2u64.pow`, which panics on overflow. -/
def powTwo (exponent : UInt32) : Except (Fault ε) UInt64 :=
  if 2 ^ exponent.toNat < 2 ^ 64 then .ok (UInt64.ofNat (2 ^ exponent.toNat))
  else .error (.panic .overflow)

/-- `u64` multiplication, which panics on overflow. -/
def checkedMul (left right : UInt64) : Except (Fault ε) UInt64 :=
  if left.toNat * right.toNat < 2 ^ 64 then .ok (left * right)
  else .error (.panic .overflow)

/-- The backoff of an attempt. -/
def backoffMs (provider : RetryingProvider) (i : UInt32) :
    Except (Fault ε) UInt64 := do
  let exponent ← checkedSub i 1
  let factor ← powTwo exponent
  checkedMul provider.baseRetryMs factor

/-- The match on the response to an attempt. The number of remaining retries is
computed for a log entry. -/
def settle (provider : RetryingProvider) (method : String) (i : UInt32) :
    Except (HttpClientError ε) R → Settled ε R
  | .ok res => .done (.ok res)
  | .error (.reqwestError error) =>
      match (checkedSub provider.maxRequests i :
        Except (Fault (RetryingProviderError ε)) UInt32) with
      | .error fault => .done (.error fault)
      | .ok _ => .retry (.reqwestError error)
  | .error (.jsonRpcError error) =>
      if methodsToNotRetry.contains method then
        .done (.error (.error (.jsonRpcClientError (.jsonRpcError error))))
      else .retry (.jsonRpcError error)
  | .error (.serdeJson error text) => .retry (.serdeJson error text)

/-- The loop from an attempt on; `responses` are those of the inner client, in
order. -/
def requestFrom (provider : RetryingProvider) (method : String)
    (params : Option Params)
    (responses : Nat → Except (HttpClientError ε) R) (i : UInt32) :
    List (Action Params) × Except (Fault (RetryingProviderError ε)) R :=
  match provider.backoffMs i with
  | .error fault => ([], .error fault)
  | .ok backoff =>
      match provider.settle method i (responses i.toNat) with
      | .done result => ([.dispatch method params], result)
      | .retry lastErr =>
          match _added : (checkedAdd i 1 :
            Except (Fault (RetryingProviderError ε)) UInt32) with
          | .error fault => ([.dispatch method params], .error fault)
          | .ok next =>
              if next ≤ provider.maxRequests then
                let later := requestFrom provider method params responses next
                (.dispatch method params :: .sleep backoff :: later.1, later.2)
              else
                ([.dispatch method params],
                  .error (.error (.maxRequests lastErr)))
termination_by 2 ^ 32 - i.toNat
decreasing_by
  have counted := toNat_of_checkedAdd _added
  have below := next.toNat_lt
  change next.toNat = i.toNat + 1 at counted
  omega

/-- A request: what the provider does, and what it returns. -/
def request (provider : RetryingProvider) (method : String)
    (params : Option Params)
    (responses : Nat → Except (HttpClientError ε) R) :
    List (Action Params) × Except (Fault (RetryingProviderError ε)) R :=
  provider.requestFrom method params responses 1

end RetryingProvider

end Abacus
