import OpenApe.Ports.GrantTypes
import OpenApe.Verified.IpSerializer

/-!
# The address guard (`packages/core/src/net/ssrf-guard.ts`)

`isBlockedAddress` decides on the text of an address, `assertPublicUrl` on
the texts a URL's host or its name resolution yields.  URL parsing and name
resolution are parameters.
-/

namespace OpenApe.Ports.SsrfGuard

open Verified.JsText Verified.Unicode Verified.IpLiteral Verified.IpSerializer
open GrantTypes

/-! ## Addresses -/

/-- `text.replace(/^\[|\]$/g, '')` -/
def stripBrackets (text : JsString) : JsString :=
  let opened := if text.head? = some (unit '[') then text.tail else text
  if opened.getLast? = some (unit ']') then opened.dropLast else opened

/-- `\d{1,3}(?:\.\d{1,3}){3}` -/
def isQuad (text : JsString) : Bool :=
  let parts := text.splitOn (unit '.')
  parts.length = 4 &&
    parts.all (fun part => part ≠ [] && part.length ≤ 3 && part.all isDigit)

/-- The text a mapped address starts with. -/
def mappedStart : JsString := js "::ffff:"

/-- `low.match(/^::ffff:(\d{1,3}(?:\.\d{1,3}){3})$/)`: what it captures. -/
def mappedQuad (low : JsString) : Option JsString :=
  if mappedStart <+: low ∧ isQuad (low.drop mappedStart.length) then
    some (low.drop mappedStart.length)
  else none

/-- The branch of `isBlockedAddress` for family 4. -/
def isBlockedQuad (ip : JsString) : Bool :=
  let o := ip.splitOn (unit '.')
  let a := decimal (o.getD 0 [])
  let b := decimal (o.getD 1 [])
  a == 0 || a == 127 || a == 10 || (a == 172 && 16 ≤ b && b ≤ 31) ||
    (a == 192 && b == 168) || (a == 169 && b == 254) ||
    (a == 100 && 64 ≤ b && b ≤ 127)

theorem isDigit_of_isQuad {text : JsString} (h : isQuad text = true) :
    ∀ u ∈ text, isDigit u = true ∨ u = unit '.' := by
  simp only [isQuad, Bool.and_eq_true, List.all_eq_true] at h
  intro u hu
  rcases mem_splitOn (c := unit '.') hu with hDot | ⟨part, hPart, hMem⟩
  · exact Or.inr hDot
  · exact Or.inl ((h.2 part hPart).2 u hMem)

theorem mappedQuad_eq_some {low quad : JsString}
    (h : mappedQuad low = some quad) :
    low = mappedStart ++ quad ∧ isQuad quad = true := by
  unfold mappedQuad at h
  split at h
  · rename_i hLow
    obtain ⟨⟨rest, rfl⟩, hQuad⟩ := hLow
    rw [List.drop_left] at h hQuad
    obtain rfl := Option.some.inj h
    exact ⟨rfl, hQuad⟩
  · cases h

theorem stripBrackets_sublist (text : JsString) :
    (stripBrackets text).Sublist text := by
  unfold stripBrackets
  extract_lets opened
  have hOpen : opened.Sublist text := by
    unfold opened
    split
    · exact text.tail_sublist
    · exact List.Sublist.refl text
  split
  · exact (List.dropLast_sublist _).trans hOpen
  · exact hOpen

theorem colon_not_mem_quad {quad : JsString} (h : isQuad quad = true) :
    unit ':' ∉ quad := by
  intro hColon
  rcases isDigit_of_isQuad h _ hColon with h | h
  · exact absurd h (by decide)
  · exact absurd h (by decide)

variable [CaseMapping]

/-- A captured quad has lower case already. -/
theorem toLowerCase_quad {quad : JsString} (h : isQuad quad = true) :
    CaseMapping.toLowerCase quad = quad := by
  have hUnit : ∀ u ∈ quad, 46 ≤ u.toNat ∧ u.toNat ≤ 57 := by
    intro u hu
    rcases isDigit_of_isQuad h u hu with hDigit | rfl
    · rw [isDigit_iff] at hDigit
      omega
    · decide
  rw [CaseMapping.toLowerCase_ascii quad
    (fun u hu => by have := hUnit u hu; omega),
    map_asciiLower_eq_self_iff]
  intro u hu
  have := hUnit u hu
  rw [asciiLower, if_neg (by omega)]

private theorem count_colon_lt {ip quad : JsString}
    (h : mappedQuad (stripBrackets (CaseMapping.toLowerCase ip)) =
      some quad) :
    (CaseMapping.toLowerCase quad).count (unit ':') <
      (CaseMapping.toLowerCase ip).count (unit ':') := by
  obtain ⟨hLow, hQuad⟩ := mappedQuad_eq_some h
  have hLe := (stripBrackets_sublist
    (CaseMapping.toLowerCase ip)).count_le (unit ':')
  rw [hLow, List.count_append] at hLe
  have hStart : mappedStart.count (unit ':') = 3 := by decide
  have hNone := List.count_eq_zero.mpr (colon_not_mem_quad hQuad)
  rw [toLowerCase_quad hQuad]
  omega

def isBlockedAddress (ip : JsString) : Bool :=
  if isIP ip = 4 then isBlockedQuad ip
  else
    let low := stripBrackets (CaseMapping.toLowerCase ip)
    if low = js "::" ∨ low = js "::1" then true
    else if js "fe80" <+: low then true
    else if js "fc" <+: low ∨ js "fd" <+: low then true
    else
      match _hMapped : mappedQuad low with
      | some quad => isBlockedAddress quad
      | none => false
-- a captured quad has no colon left
termination_by (CaseMapping.toLowerCase ip).count (unit ':')
decreasing_by exact count_colon_lt _hMapped

/-! ## URLs -/

/-- The parts of `URL` the guard reads. -/
structure Url where
  protocol : JsString
  host : Host
  deriving DecidableEq

def Url.hostname (url : Url) : JsString := url.host.hostname

/-- What `assertPublicUrl` leaves to the runtime: `new URL(text)`, where it
does not throw, and the addresses of `lookup(host, { all: true })`. -/
structure Network where
  parseUrl : JsString → Option Url
  lookup : JsString → Except JsError (List JsString)

/-- `AssertPublicUrlOptions` -/
structure AssertPublicUrlOptions where
  allowHttp : Option Bool := none
  deriving DecidableEq

def allowedSchemes (opts : AssertPublicUrlOptions) : List JsString :=
  if opts.allowHttp = some true then [js "https:", js "http:"]
  else [js "https:"]

def invalidUrl (rawUrl : JsString) : JsError :=
  plainError (js "Invalid URL: " ++ rawUrl)

def wrongScheme (opts : AssertPublicUrlOptions) (url : Url)
    (rawUrl : JsString) : JsError :=
  let expected :=
    if opts.allowHttp = some true then js "http(s)" else js "https"
  plainError (js "URL must use " ++ expected ++ js ":// (got " ++
    url.protocol ++ js "//) — " ++ rawUrl)

def unresolvedHost (host : JsString) : JsError :=
  plainError (js "Host did not resolve: " ++ host)

def privateAddress (addr rawUrl : JsString) : JsError :=
  plainError (js "Refusing to fetch a private/loopback address (" ++ addr ++
    js ") for " ++ rawUrl)

/-- The addresses the guard looks at: the host itself, if it is one. -/
def addressesOf (network : Network) (host : JsString) :
    Except JsError (List JsString) :=
  if isIP host ≠ 0 then .ok [host] else network.lookup host

def assertPublicUrl (network : Network) (rawUrl : JsString)
    (opts : AssertPublicUrlOptions) : Except JsError Url :=
  match network.parseUrl rawUrl with
  | none => .error (invalidUrl rawUrl)
  | some url =>
      if url.protocol ∉ allowedSchemes opts then
        .error (wrongScheme opts url rawUrl)
      else do
        let host := stripBrackets url.hostname
        let addresses ← addressesOf network host
        if addresses = [] then
          .error (unresolvedHost host)
        else
          match addresses.find? isBlockedAddress with
          | some addr => .error (privateAddress addr rawUrl)
          | none => .ok url

end OpenApe.Ports.SsrfGuard
