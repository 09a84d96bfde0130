import OpenApe.Ports.SecretsMatch
import OpenApe.Verified.TextPieces
import OpenApe.Verified.Unicode
import OpenApe.Verified.Fallible

/-!
# Injecting a secret (`packages/proxy/src/proxy.ts`, `connect.ts`)

The forward path and the intercepted CONNECT path each look a secret up for
the target URL and render its header from the entry's template, by
`template.replace(/\$\{value\}/g, value)`.  The second argument of `replace` is
a template of its own: `$$`, `$&`, `` $` `` and `$'` in the *value* are
replaced.  A value is injected as it is exactly when it has none of them.
-/

namespace OpenApe.Ports.SecretInjection

open Verified.JsText Verified.Unicode Verified.TextPieces
open Verified.RegExpPieces (SyntaxError)
open SecretsMatch

/-! ## The source -/

/-- `/\$\{value\}/` -/
def placeholder : JsString := js "$\x7bvalue\x7d"

/-- What `String.prototype.replace` makes of its second argument, where the
pattern has no groups: `matched` with the text before and after it. -/
def getSubstitution (matched before after : JsString) : JsString → JsString
  | [] => []
  | [u] => [u]
  | u :: v :: rest =>
      if u = unit '$' ∧ v = unit '$' then
        unit '$' :: getSubstitution matched before after rest
      else if u = unit '$' ∧ v = unit '&' then
        matched ++ getSubstitution matched before after rest
      else if u = unit '$' ∧ v = unit '\x60' then
        before ++ getSubstitution matched before after rest
      else if u = unit '$' ∧ v = unit '\x27' then
        after ++ getSubstitution matched before after rest
      else u :: getSubstitution matched before after (v :: rest)

/-- `match.template.replace(/\$\{value\}/g, match.value)` -/
def rendered (template value : JsString) : JsString :=
  fillPieces placeholder
    (fun before after => getSubstitution placeholder before after value) []
    (pieces placeholder template)

/-- The header that is set on the outgoing request. -/
structure InjectedHeader where
  header : JsString
  value : JsString
  deriving DecidableEq

/-- The hook of `forwardRequest`. -/
def forwardRequest (entries : List SecretEntry) (targetParsed : Url) :
    Except SyntaxError (Option InjectedHeader) :=
  (matchSecret targetParsed entries).map (Option.map fun found =>
    { header := found.header, value := rendered found.template found.value })

/-- `new URL(…)`, which throws where there is none. -/
structure UrlRuntime where
  parse : JsString → Option Url

inductive ConnectError where
  | url
  | pattern (error : SyntaxError)

/-- The digits of a port. -/
def portText (port : Nat) : JsString := js (toString port)

/-- The URL that `onRequest` of `handleConnect` rebuilds. -/
def targetUrl (host : JsString) (port : Nat) (path : JsString) : JsString :=
  let portSuffix := if port = 443 then [] else js ":" ++ portText port
  js "https://" ++ host ++ portSuffix ++ path

/-- `onRequest` of `handleConnect`; the header's name is in lower case. -/
def onRequest [CaseMapping] (runtime : UrlRuntime)
    (entries : List SecretEntry) (host : JsString) (port : Nat)
    (path : JsString) : Except ConnectError (Option InjectedHeader) :=
  match runtime.parse (targetUrl host port path) with
  | none => .error .url
  | some target =>
      match matchSecret target entries with
      | .error error => .error (.pattern error)
      | .ok found => .ok (found.map fun entry =>
          { header := CaseMapping.toLowerCase entry.header
            value := rendered entry.template entry.value })

/-! ## What is to be injected -/

/-- The template with every placeholder replaced by the value, and nothing
else changed. -/
def literally (template value : JsString) : JsString :=
  List.intercalate value (pieces placeholder template)

/-- The units that a dollar sign gives a meaning in a replacement. -/
def patternUnits : List CodeUnit :=
  [unit '$', unit '&', unit '\x60', unit '\x27']

/-- The value holds `$$`, `$&`, `` $` `` or `$'`. -/
def HasPattern (value : JsString) : Prop :=
  ∃ before u after, value = before ++ unit '$' :: u :: after ∧
    u ∈ patternUnits

/-- The text of a host: no other part of a URL starts in it, and colons stand
in brackets only. -/
def HostText (host : JsString) : Prop :=
  (∀ u ∈ host, u ∉ js "/?#\\@") ∧
    (unit ':' ∉ host ∨ ∃ inner, host = unit '[' :: inner ++ [unit ']'])

/-- A target URL as it is asked for, with an explicit port or none. -/
def requestedUrl (host : JsString) (port : Option Nat) (path : JsString) :
    JsString :=
  js "https://" ++ host ++ port.elim [] (fun n => js ":" ++ portText n) ++ path

/-- Port 443 is the default of `https:` and left out of a URL. -/
def DropsDefaultPort (runtime : UrlRuntime) : Prop :=
  ∀ host path, HostText host → path.head? = some (unit '/') →
    runtime.parse (requestedUrl host (some 443) path) =
      runtime.parse (requestedUrl host none path)

/-- The value is injected literally on both paths, and both choose the same
entry for the same URL. -/
structure InjectsLiterally [CaseMapping] (runtime : UrlRuntime)
    (value : JsString) : Prop where
  forward : ∀ (entries : List SecretEntry) (target : Url)
    (entry : SecretEntry),
    matchSecret target entries = .ok (some entry) → entry.value = value →
      forwardRequest entries target = .ok (some
        { header := entry.header, value := literally entry.template value })
  connect : ∀ (entries : List SecretEntry) (host : JsString) (port : Nat)
    (path : JsString) (target : Url) (entry : SecretEntry),
    runtime.parse (targetUrl host port path) = some target →
    matchSecret target entries = .ok (some entry) → entry.value = value →
      onRequest runtime entries host port path = .ok (some
        { header := CaseMapping.toLowerCase entry.header
          value := literally entry.template value })
  same : ∀ (entries : List SecretEntry) (host : JsString)
    (port : Option Nat) (path : JsString) (target : Url), HostText host →
    path.head? = some (unit '/') →
    runtime.parse (requestedUrl host port path) = some target →
      ∃ rebuilt,
        runtime.parse (targetUrl host (port.getD 443) path) = some rebuilt ∧
        matchSecret rebuilt entries = matchSecret target entries

/-! ## What `replace` makes of a value -/

theorem hasPattern_here {u v : CodeUnit} (rest : JsString) (hu : u = unit '$')
    (hv : v ∈ patternUnits) : HasPattern (u :: v :: rest) :=
  ⟨[], v, rest, by rw [hu, List.nil_append], hv⟩

theorem hasPattern_cons (u : CodeUnit) {rest : JsString}
    (h : HasPattern rest) : HasPattern (u :: rest) := by
  obtain ⟨before, v, after, rfl, hv⟩ := h
  exact ⟨u :: before, v, after, rfl, hv⟩

theorem hasPattern_tail {u v : CodeUnit} {rest : JsString}
    (h : HasPattern (u :: v :: rest))
    (hHere : ¬(u = unit '$' ∧ v ∈ patternUnits)) : HasPattern (v :: rest) := by
  obtain ⟨before, w, after, hSplit, hw⟩ := h
  cases before with
  | nil =>
      obtain ⟨hu, hRest⟩ := List.cons.inj hSplit
      obtain ⟨hv, -⟩ := List.cons.inj hRest
      exact absurd ⟨hu, hv ▸ hw⟩ hHere
  | cons _ before =>
      exact ⟨before, w, after, (List.cons.inj hSplit).2, hw⟩

/-- A value without a pattern stands for itself. -/
theorem getSubstitution_plain (matched before after : JsString)
    {value : JsString} (h : ¬HasPattern value) :
    getSubstitution matched before after value = value := by
  induction value using getSubstitution.induct with
  | case1 => rfl
  | case2 u => rfl
  | case3 u v rest hPair ih =>
      exact absurd (hasPattern_here rest hPair.1 (hPair.2 ▸ by decide)) h
  | case4 u v rest _ hPair ih =>
      exact absurd (hasPattern_here rest hPair.1 (hPair.2 ▸ by decide)) h
  | case5 u v rest _ _ hPair ih =>
      exact absurd (hasPattern_here rest hPair.1 (hPair.2 ▸ by decide)) h
  | case6 u v rest _ _ _ hPair ih =>
      exact absurd (hasPattern_here rest hPair.1 (hPair.2 ▸ by decide)) h
  | case7 u v rest h₁ h₂ h₃ h₄ ih =>
      rw [getSubstitution, if_neg h₁, if_neg h₂, if_neg h₃, if_neg h₄,
        ih fun hTail => h (hasPattern_cons u hTail)]

theorem placeholder_eq : ∃ more, placeholder = unit '$' :: unit '\x7b' :: more :=
  ⟨js "value\x7d", by decide⟩

/-- The units of the patterns but `&`. -/
def frontUnits : List CodeUnit := [unit '$', unit '\x60', unit '\x27']

theorem mem_append_units {front back : JsString}
    (hFront : ∀ u ∈ front, u ∈ frontUnits) (hBack : ∀ u ∈ back, u ∈ frontUnits) :
    ∀ u ∈ front ++ back, u ∈ frontUnits := by
  intro u hu
  cases List.mem_append.mp hu with
  | inl h => exact hFront u h
  | inr h => exact hBack u h

private theorem pair_frontUnits {u v : CodeUnit} (hu : u ∈ frontUnits)
    (hv : v ∈ frontUnits) : ∀ w ∈ [u, v], w ∈ frontUnits := by
  intro w hw
  rcases List.mem_pair.mp hw with rfl | rfl
  · exact hu
  · exact hv

/-- The value is not what it stands for with something put in front of it:
each step of the induction moves units of the value into the front, which
never gets empty. -/
theorem getSubstitution_ne_append {value front : JsString}
    (hFront : front ≠ []) (hUnits : ∀ u ∈ front, u ∈ frontUnits) :
    getSubstitution placeholder [] [] value ≠ front ++ value := by
  induction value using getSubstitution.induct generalizing front with
  | case1 => exact fun h => hFront (List.append_eq_nil_iff.mp h.symm).1
  | case2 u =>
      intro h
      have hLength := congrArg List.length h
      have hPositive := List.length_pos_iff.mpr hFront
      rw [getSubstitution, List.length_append] at hLength
      omega
  | case3 u v rest hPair ih =>
      rw [getSubstitution, if_pos hPair]
      intro h
      obtain ⟨c, more, rfl⟩ := List.exists_cons_of_ne_nil hFront
      have hRest : getSubstitution placeholder [] [] rest =
          more ++ [u, v] ++ rest := by
        rw [List.append_assoc]
        exact (List.cons.inj h).2
      refine ih (List.append_ne_nil_of_right_ne_nil _ (by simp)) ?_ hRest
      exact mem_append_units
        (fun w hw => hUnits w (List.mem_cons_of_mem c hw))
        (pair_frontUnits (by rw [hPair.1]; decide) (by rw [hPair.2]; decide))
  | case4 u v rest _ hPair ih =>
      obtain ⟨tail, hPlaceholder⟩ := placeholder_eq
      rw [getSubstitution, if_neg ‹_›, if_pos hPair, hPlaceholder]
      intro h
      obtain ⟨c, more, rfl⟩ := List.exists_cons_of_ne_nil hFront
      have hSecond := (List.cons.inj h).2
      cases more with
      | nil =>
          have hBrace := (List.cons.inj hSecond).1
          rw [hPair.1] at hBrace
          exact absurd hBrace (by decide)
      | cons d more =>
          have hBrace := hUnits d (by simp)
          rw [← (List.cons.inj hSecond).1] at hBrace
          exact absurd hBrace (by decide)
  | case5 u v rest _ _ hPair ih =>
      rw [getSubstitution, if_neg ‹_›, if_neg ‹_›, if_pos hPair,
        List.nil_append]
      intro h
      refine ih (List.append_ne_nil_of_left_ne_nil hFront [u, v]) ?_
        (h.trans (List.append_assoc front [u, v] rest).symm)
      exact mem_append_units hUnits
        (pair_frontUnits (by rw [hPair.1]; decide) (by rw [hPair.2]; decide))
  | case6 u v rest _ _ _ hPair ih =>
      rw [getSubstitution, if_neg ‹_›, if_neg ‹_›, if_neg ‹_›, if_pos hPair,
        List.nil_append]
      intro h
      refine ih (List.append_ne_nil_of_left_ne_nil hFront [u, v]) ?_
        (h.trans (List.append_assoc front [u, v] rest).symm)
      exact mem_append_units hUnits
        (pair_frontUnits (by rw [hPair.1]; decide) (by rw [hPair.2]; decide))
  | case7 u v rest h₁ h₂ h₃ h₄ ih =>
      rw [getSubstitution, if_neg h₁, if_neg h₂, if_neg h₃, if_neg h₄]
      intro h
      obtain ⟨c, more, rfl⟩ := List.exists_cons_of_ne_nil hFront
      obtain ⟨hHead, hTail⟩ := List.cons.inj h
      refine ih (List.append_ne_nil_of_right_ne_nil more (by simp)) ?_
        (hTail.trans (List.append_assoc more [u] (v :: rest)).symm)
      exact mem_append_units
        (fun w hw => hUnits w (List.mem_cons_of_mem c hw))
        (fun w hw => by
          rw [List.mem_singleton.mp hw, hHead]
          exact hUnits c List.mem_cons_self)

/-- A value with a pattern does not stand for itself, even where it stands
alone. -/
theorem getSubstitution_ne {value : JsString} (h : HasPattern value) :
    getSubstitution placeholder [] [] value ≠ value := by
  induction value using getSubstitution.induct with
  | case1 =>
      obtain ⟨before, u, after, hSplit, -⟩ := h
      exact absurd hSplit (by simp)
  | case2 u =>
      obtain ⟨before, w, after, hSplit, -⟩ := h
      have hLength := congrArg List.length hSplit
      rw [List.length_append, List.length_cons, List.length_cons,
        List.length_cons, List.length_nil] at hLength
      omega
  | case3 u v rest hPair ih =>
      rw [getSubstitution, if_pos hPair]
      intro hSame
      refine getSubstitution_ne_append (List.cons_ne_nil v []) ?_
        (List.cons.inj hSame).2
      rw [List.forall_mem_singleton, hPair.2]
      decide
  | case4 u v rest _ hPair ih =>
      obtain ⟨tail, hPlaceholder⟩ := placeholder_eq
      rw [getSubstitution, if_neg ‹_›, if_pos hPair, hPlaceholder]
      intro hSame
      have hBrace := (List.cons.inj (List.cons.inj hSame).2).1
      rw [hPair.2] at hBrace
      exact absurd hBrace (by decide)
  | case5 u v rest _ _ hPair ih =>
      rw [getSubstitution, if_neg ‹_›, if_neg ‹_›, if_pos hPair,
        List.nil_append]
      refine getSubstitution_ne_append (List.cons_ne_nil u [v]) ?_
      exact pair_frontUnits (by rw [hPair.1]; decide)
        (by rw [hPair.2]; decide)
  | case6 u v rest _ _ _ hPair ih =>
      rw [getSubstitution, if_neg ‹_›, if_neg ‹_›, if_neg ‹_›, if_pos hPair,
        List.nil_append]
      refine getSubstitution_ne_append (List.cons_ne_nil u [v]) ?_
      exact pair_frontUnits (by rw [hPair.1]; decide)
        (by rw [hPair.2]; decide)
  | case7 u v rest h₁ h₂ h₃ h₄ ih =>
      rw [getSubstitution, if_neg h₁, if_neg h₂, if_neg h₃, if_neg h₄]
      intro hSame
      refine ih (hasPattern_tail h fun hHere => ?_) (List.cons.inj hSame).2
      obtain ⟨hu, hv⟩ := hHere
      simp only [patternUnits, List.mem_cons, List.not_mem_nil, or_false] at hv
      rcases hv with hv | hv | hv | hv
      · exact h₁ ⟨hu, hv⟩
      · exact h₂ ⟨hu, hv⟩
      · exact h₃ ⟨hu, hv⟩
      · exact h₄ ⟨hu, hv⟩

/-! ## Rendering -/

theorem rendered_plain (template : JsString) {value : JsString}
    (h : ¬HasPattern value) : rendered template value = literally template value :=
  fillPieces_const
    (fun before after => getSubstitution_plain placeholder before after h) [] _

theorem pieces_placeholder : pieces placeholder placeholder = [[], []] := by
  decide

theorem rendered_ne {value : JsString} (h : HasPattern value) :
    rendered placeholder value ≠ literally placeholder value := by
  rw [rendered, literally, pieces_placeholder]
  have hValue : List.intercalate value [[], []] = value := by
    rw [List.intercalate_cons_cons, List.intercalate_singleton,
      List.nil_append, List.append_nil]
  rw [hValue, fillPieces, fillPieces, List.append_nil, List.nil_append]
  exact getSubstitution_ne h

/-- The template is its pieces joined by the placeholder, which none of them
holds, and what is to be injected is the same pieces joined by the value. -/
theorem literally_spec (template value : JsString) :
    ∃ parts, template = List.intercalate placeholder parts ∧
      (∀ part ∈ parts, ¬placeholder <:+: part) ∧
      literally template value = List.intercalate value parts := by
  have hSome : placeholder ≠ [] := by decide
  exact ⟨pieces placeholder template, (join_pieces hSome template).symm,
    fun part hPart => not_infix_of_mem_pieces hSome hPart, rfl⟩

/-! ## The URL of both paths -/

theorem parse_targetUrl {runtime : UrlRuntime} (hDefault : DropsDefaultPort runtime)
    {host path : JsString} (hHost : HostText host)
    (hPath : path.head? = some (unit '/')) (port : Option Nat) :
    runtime.parse (targetUrl host (port.getD 443) path) =
      runtime.parse (requestedUrl host port path) := by
  cases port with
  | none => rfl
  | some n =>
      by_cases hPort : n = 443
      · rw [hPort, hDefault host path hHost hPath]
        rfl
      · rw [Option.getD_some, targetUrl, if_neg hPort]
        rfl

/-- A store with one secret, for a host. -/
def onlyEntry (value : JsString) : SecretEntry where
  name := js "key"
  target := js "h"
  header := js "Authorization"
  template := placeholder
  value := value

theorem matchSecret_onlyEntry (value : JsString) :
    matchSecret ⟨js "h", [], js "/"⟩ [onlyEntry value] =
      .ok (some (onlyEntry value)) := by
  rfl

/-- **A secret is injected literally** on both paths exactly when its value
has no replacement pattern; the entry is the same in any case. -/
theorem injectsLiterally_iff [CaseMapping] (runtime : UrlRuntime)
    (hDefault : DropsDefaultPort runtime) (value : JsString) :
    InjectsLiterally runtime value ↔ ¬HasPattern value := by
  constructor
  · intro h hPattern
    have hForward := h.forward [onlyEntry value] ⟨js "h", [], js "/"⟩
      (onlyEntry value) (matchSecret_onlyEntry value) rfl
    rw [forwardRequest, matchSecret_onlyEntry] at hForward
    have hSame := InjectedHeader.mk.inj (Option.some.inj (Except.ok.inj hForward))
    exact rendered_ne hPattern hSame.2
  · intro hPlain
    refine ⟨fun entries target entry hFound hValue => ?_,
      fun entries host port path target entry hParse hFound hValue => ?_,
      fun entries host port path target hHost hPath hParse => ?_⟩
    · rw [forwardRequest, hFound, ← rendered_plain entry.template hPlain, ← hValue]
      rfl
    · rw [onRequest, hParse]
      dsimp only
      rw [hFound, ← rendered_plain entry.template hPlain, ← hValue]
      rfl
    · exact ⟨target, (parse_targetUrl hDefault hHost hPath port).trans hParse,
        rfl⟩

/-! ## One host -/

/-- The runtime as far as the URLs of one host are concerned. -/
def oneHost : UrlRuntime where
  parse text :=
    if text = js "https://h/" ∨ text = js "https://h:443/" then
      some ⟨js "h", [], js "/"⟩
    else none

theorem cut_at_slash {a b p q : JsString} (ha : unit '/' ∉ a)
    (hb : unit '/' ∉ b) (h : a ++ unit '/' :: p = b ++ unit '/' :: q) :
    a = b ∧ p = q := by
  have hSame := eq_of_append_eq ha hb (Or.inr rfl) (Or.inr rfl) h
  rw [hSame] at h
  exact ⟨hSame, (List.cons.inj (List.append_cancel_left h)).2⟩

theorem portText_default : js ":" ++ portText 443 = js ":443" := by
  decide

/-- What stands behind the scheme of a URL of the host. -/
theorem eq_oneHost_iff {host rest : JsString} (known : JsString)
    (hKnown : unit '/' ∉ known) (hHost : unit '/' ∉ host) :
    js "https://" ++ host ++ unit '/' :: rest =
        js "https://" ++ known ++ unit '/' :: [] ↔
      host = known ∧ rest = [] := by
  constructor
  · intro h
    rw [List.append_assoc, List.append_assoc] at h
    exact cut_at_slash hHost hKnown (List.append_cancel_left h)
  · rintro ⟨rfl, rfl⟩
    rfl

theorem dropsDefaultPort_oneHost : DropsDefaultPort oneHost := by
  intro host path hHost hPath
  obtain ⟨rest, rfl⟩ := List.head?_eq_some_iff.mp hPath
  have hSlash : unit '/' ∉ host := fun hMem => hHost.1 _ hMem (by decide)
  have hPortSlash : unit '/' ∉ host ++ js ":443" := by
    rw [List.mem_append]
    exact not_or.mpr ⟨hSlash, by decide⟩
  have hNotPort : host ≠ js "h" ++ js ":443" := by
    rintro rfl
    rcases hHost.2 with hColon | ⟨inner, hBrackets⟩
    · exact hColon (by decide)
    · exact absurd (List.cons.inj hBrackets).1 (by decide)
  have hNotShort : host ++ js ":443" ≠ js "h" := by
    intro hShort
    have hLength := congrArg List.length hShort
    rw [List.length_append, show (js ":443").length = 4 by decide,
      show (js "h").length = 1 by decide] at hLength
    omega
  have hFirst : js "https://h/" = js "https://" ++ js "h" ++ unit '/' :: [] := by
    decide
  have hSecond : js "https://h:443/" =
      js "https://" ++ (js "h" ++ js ":443") ++ unit '/' :: [] := by
    decide
  have hNone : requestedUrl host none (unit '/' :: rest) =
      js "https://" ++ host ++ unit '/' :: rest := by
    rw [requestedUrl, Option.elim_none, List.append_nil]
  have hSome : requestedUrl host (some 443) (unit '/' :: rest) =
      js "https://" ++ (host ++ js ":443") ++ unit '/' :: rest := by
    rw [requestedUrl, Option.elim_some, portText_default, ← List.append_assoc]
  simp only [oneHost, hNone, hSome, hFirst, hSecond,
    eq_oneHost_iff (js "h") (by decide) hSlash,
    eq_oneHost_iff (js "h" ++ js ":443") (by decide) hSlash,
    eq_oneHost_iff (js "h") (by decide) hPortSlash,
    eq_oneHost_iff (js "h" ++ js ":443") (by decide) hPortSlash, hNotPort,
    hNotShort, List.append_cancel_right_eq, false_and, or_false, false_or]

/-- A value with two dollar signs loses one. -/
theorem forwardRequest_dollars :
    letI := asciiCaseMapping
    ¬InjectsLiterally oneHost (js "pa$$word") := by
  let := asciiCaseMapping
  intro h
  have hForward := h.forward [onlyEntry (js "pa$$word")] ⟨js "h", [], js "/"⟩
    (onlyEntry (js "pa$$word")) (matchSecret_onlyEntry _) rfl
  exact absurd hForward (by decide)

theorem injectsLiterally_iff_plain :
    letI := asciiCaseMapping
    DropsDefaultPort oneHost ∧
      (InjectsLiterally oneHost (js "s3cret") ↔ ¬HasPattern (js "s3cret")) :=
  ⟨dropsDefaultPort_oneHost, @injectsLiterally_iff asciiCaseMapping oneHost
    dropsDefaultPort_oneHost (js "s3cret")⟩

end OpenApe.Ports.SecretInjection
