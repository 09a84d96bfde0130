import OpenApe.Verified.FixedWindows
import OpenApe.Verified.JsText

/-!
# The rate limits of the IdP (`rate-limit.ts`, `authorize-rate-limit.ts`)

Sign-in requests are charged to their address and bucket, program calls to
their verified subject.  The bucket of a path, the test whether an address is
a trusted proxy's and the limits of the environment are parameters.
-/

namespace OpenApe.Ports.RateLimits

open Verified.JsText Verified.FixedWindows

def windowMs : Int := 60000
def cleanupIntervalMs : Int := 300000

/-! ## Addresses -/

section Addresses

variable (inTrustedList : JsString → Bool)

/-- The addresses of a forwarding header, the last hop last. -/
def chain (xff : JsString) : List JsString :=
  ((xff.splitOn (unit ',')).map trim).filter fun ip => !ip.isEmpty

def resolveClientIp (peer xff : Option JsString) : JsString :=
  let peer := peer.getD (js "unknown")
  if peer = js "unknown" || !inTrustedList peer then peer
  else ((xff.map chain).bind fun hops =>
    hops.reverse.find? fun ip => !inTrustedList ip).getD peer

/-- **A forged header is ignored**: what stands before the part that the
trusted proxies wrote changes the address only where that part names no
address but theirs. -/
theorem resolveClientIp_forged (peer : Option JsString)
    (forged xff : JsString) :
    resolveClientIp inTrustedList peer (some (forged ++ unit ',' :: xff)) =
        resolveClientIp inTrustedList peer (some xff) ∨
      ∀ ip ∈ chain xff, inTrustedList ip = true := by
  have hChain : chain (forged ++ unit ',' :: xff) =
      chain forged ++ chain xff := by
    rw [chain, List.splitOn_append_cons_self, List.map_append,
      List.filter_append]
    rfl
  simp only [resolveClientIp, Option.map_some, Option.bind_some, hChain,
    List.reverse_append, List.find?_append]
  cases hFound : (chain xff).reverse.find? fun ip => !inTrustedList ip with
  | some ip => exact .inl rfl
  | none =>
      right
      simpa using hFound

/-! ## The limiter of the sign-in requests -/

/-- A request that is limited; one of `chargeUnauthenticatedRequest` has the
bucket `agent`. -/
structure Incoming where
  peer : Option JsString
  xff : Option JsString
  bucket : JsString
  cleanedAt : Int
  now : Int

def Incoming.charge (r : Incoming) : Request JsString where
  key := resolveClientIp inTrustedList r.peer r.xff ++ unit ':' :: r.bucket
  cleanedAt := r.cleanedAt
  now := r.now

/-- What one of the two limiters is asked: `enforceAuthorizeRateLimit` takes
a subject and reads the clock once. -/
inductive Calls where
  | signIn (incoming : List Incoming)
  | authorize (calls : List (JsString × Int))

def Calls.requests : Calls → List (Request JsString)
  | signIn incoming => incoming.map (Incoming.charge inTrustedList)
  | authorize calls => calls.map fun call => ⟨call.1, call.2, call.2⟩

/-- The entries that the requests of a key are charged to. -/
abbrev entries (start : Int) (key : JsString) (calls : Calls) : List Window :=
  answersTo windowMs cleanupIntervalMs key (calls.requests inTrustedList)
    { lastCleanup := start }

/-- When the key was charged. -/
abbrev chargedAt (key : JsString) (calls : Calls) : List Int :=
  timesOf key (calls.requests inTrustedList)

/-- **Keys are counted apart**: what a key is charged does not depend on other
keys or on the cleanup. -/
theorem entries_eq {start : Int} {calls : Calls}
    (h : Ordered start (calls.requests inTrustedList)) (key : JsString) :
    entries inTrustedList start key calls =
      counted windowMs none (chargedAt inTrustedList key calls) :=
  answersTo_eq windowMs cleanupIntervalMs h rfl

/-- **The bound of a minute**: of the requests of a key fewer than twice the
limit pass in any 60 seconds. -/
theorem passes_le {start : Int} {calls : Calls}
    (h : Ordered start (calls.requests inTrustedList)) (key : JsString)
    (limit : Nat) (a : Int) :
    ((chargedAt inTrustedList key calls).zip
      (entries inTrustedList start key calls)).countP
        (passes windowMs limit a) ≤ 2 * limit - 1 := by
  rw [entries, answersTo_eq windowMs cleanupIntervalMs h rfl]
  exact countP_counted_le windowMs (by decide) (sorted_timesOf h key)

end Addresses

/-- The second window begins while the first still has room. -/
def twoWindows : Calls :=
  .authorize ([0, 59999, 60000, 60001].map fun now => (js "a", now))

theorem ordered_twoWindows (inTrustedList : JsString → Bool) :
    Ordered 0 (twoWindows.requests inTrustedList) := by
  simp [twoWindows, Calls.requests, Ordered]

theorem entries_eq_twoWindows :
    entries (fun _ => false) 0 (js "a") twoWindows =
      [⟨1, 60000⟩, ⟨2, 60000⟩, ⟨1, 120000⟩, ⟨2, 120000⟩] :=
  entries_eq _ (ordered_twoWindows _) (js "a")

theorem passes_le_twoWindows :
    ((chargedAt (fun _ => false) (js "a") twoWindows).zip
      (entries (fun _ => false) 0 (js "a") twoWindows)).countP
        (passes windowMs 2 59999) ≤ 3 :=
  passes_le _ (ordered_twoWindows _) (js "a") 2 59999

end OpenApe.Ports.RateLimits
