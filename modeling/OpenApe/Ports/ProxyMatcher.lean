import OpenApe.Verified.RegExpPieces
import OpenApe.Verified.Unicode

/-!
# The proxy's rules (`packages/proxy/src/matcher.ts`, `connect.ts`, `proxy.ts`)

A forward request hands the rules the host of a parsed URL; a CONNECT hands
them the host as the request line spells it.  The globs compare units, so
the rules may tell two spellings of one host apart.
-/

namespace OpenApe.Ports.ProxyMatcher

open Verified.JsText Verified.Unicode
open Verified.RegExpSource (escape replaceUnit)
open Verified.RegExpPieces

/-! ## The source -/

structure RuleEntry where
  domain : JsString
  methods : Option (List JsString) := none
  path : Option JsString := none
  note : Option JsString := none
  deriving DecidableEq

inductive GrantRuleType where
  | once
  | timed
  | always
  deriving DecidableEq, Repr

structure GrantRuleEntry extends RuleEntry where
  grantType : GrantRuleType
  permissions : Option (List JsString) := none
  duration : Option Int := none
  deriving DecidableEq

inductive DefaultAction where
  | allow
  | block
  | request
  | requestAsync
  deriving DecidableEq, Repr

/-- What `evaluateRules` reads of a `ProxyConfig`. -/
structure ProxyConfig where
  defaultAction : DefaultAction
  allow : List RuleEntry
  deny : List RuleEntry
  grantRequired : List GrantRuleEntry

inductive RuleAction where
  | allow
  | deny (note : Option JsString)
  | grantRequired (rule : GrantRuleEntry)
  deriving DecidableEq

/-- Cuts `word` out of a text, from left to right, where it stands; `skip`
units belong to the word just found. -/
def replaceWordFrom (word replacement : JsString) : Nat → JsString → JsString
  | _, [] => []
  | 0, u :: rest =>
      if word <+: u :: rest then
        replacement ++ replaceWordFrom word replacement (word.length - 1) rest
      else u :: replaceWordFrom word replacement 0 rest
  | skip + 1, _ :: rest => replaceWordFrom word replacement skip rest

/-- `text.replace(/word/g, replacement)` for a literal word. -/
def replaceWord (word replacement text : JsString) : JsString :=
  replaceWordFrom word replacement 0 text

/-- The characters that `globMatch` escapes. -/
def escapedUnits : JsString := js ".+^${}()|[]\\"

/-- The source of the expression of a glob. -/
def globSource (pattern : JsString) : JsString :=
  let escaped := escape escapedUnits pattern
  let marked := replaceWord (js "**") (js "<<<DOUBLESTAR>>>") escaped
  let starred := replaceUnit (unit '*') (js "[^/]*") marked
  js "^" ++ replaceWord (js "<<<DOUBLESTAR>>>") (js ".*") starred ++ js "$"

def globMatch (pattern value : JsString) : Except SyntaxError Bool :=
  match newRegExp (globSource pattern) with
  | .error error => .error error
  | .ok regex => .ok (accepts regex value)

/-- `method.toUpperCase()` of a method name, a token of ASCII. -/
def asciiUpper (u : CodeUnit) : CodeUnit :=
  if unit 'a' ≤ u ∧ u ≤ unit 'z' then u - 32 else u

def matchesRule (rule : RuleEntry) (domain method path : JsString) :
    Except SyntaxError Bool :=
  match globMatch rule.domain domain with
  | .error error => .error error
  | .ok false => .ok false
  | .ok true =>
      let methods := rule.methods.getD []
      if methods ≠ [] ∧ method.map asciiUpper ∉ methods then .ok false
      else
        let rulePath := rule.path.getD []
        if rulePath ≠ [] then globMatch rulePath path else .ok true

/-- The loop over one list of rules. -/
def firstMatch {α : Type} (entry : α → RuleEntry)
    (domain method path : JsString) : List α → Except SyntaxError (Option α)
  | [] => .ok none
  | rule :: rules =>
      match matchesRule (entry rule) domain method path with
      | .error error => .error error
      | .ok true => .ok (some rule)
      | .ok false => firstMatch entry domain method path rules

/-- What an unmatched host gets. -/
def unmatched (config : ProxyConfig) : RuleAction :=
  match config.defaultAction with
  | .block => .deny (some (js "No matching rule (default: block)"))
  | .allow => .allow
  | _ => .grantRequired { domain := js "*", grantType := .once }

def evaluateRules (config : ProxyConfig) (domain method path : JsString) :
    Except SyntaxError RuleAction :=
  match firstMatch id domain method path config.deny with
  | .error error => .error error
  | .ok (some rule) => .ok (.deny rule.note)
  | .ok none =>
      match firstMatch id domain method path config.allow with
      | .error error => .error error
      | .ok (some _) => .ok .allow
      | .ok none =>
          match firstMatch GrantRuleEntry.toRuleEntry domain method path
              config.grantRequired with
          | .error error => .error error
          | .ok (some rule) => .ok (.grantRequired rule)
          | .ok none => .ok (unmatched config)

/-- The two ways a request arrives. -/
inductive Way where
  | connect
  | forward
  deriving DecidableEq, Repr

/-- The host that is judged: as it is spelled, or as the URL parser gives
it. -/
def domainOf (urlHost : JsString → JsString) : Way → JsString → JsString
  | .connect, host => host
  | .forward, host => urlHost host

/-! ## One list of rules -/

/-- A rule with the list it stands in. -/
inductive Listed where
  | deny (rule : RuleEntry)
  | allow (rule : RuleEntry)
  | grant (rule : GrantRuleEntry)

def Listed.entry : Listed → RuleEntry
  | .deny rule => rule
  | .allow rule => rule
  | .grant rule => rule.toRuleEntry

/-- What the rule calls for when it matches. -/
def Listed.action : Listed → RuleAction
  | .deny rule => .deny rule.note
  | .allow _ => .allow
  | .grant rule => .grantRequired rule

/-- The rules in the order in which they are tried. -/
def listing (config : ProxyConfig) : List Listed :=
  config.deny.map .deny ++ config.allow.map .allow ++
    config.grantRequired.map .grant

/-- What one rule says of a request; nothing when it does not match. -/
def verdict (domain method path : JsString) (rule : Listed) :
    Option (Except SyntaxError RuleAction) :=
  match matchesRule rule.entry domain method path with
  | .error error => some (.error error)
  | .ok true => some (.ok rule.action)
  | .ok false => none

theorem findSome?_verdict {α : Type} {e : α → RuleEntry}
    {place : α → Listed} (hPlace : ∀ rule, (place rule).entry = e rule)
    (domain method path : JsString) (rules : List α) :
    (rules.map place).findSome? (verdict domain method path) =
      match firstMatch e domain method path rules with
      | .error error => some (.error error)
      | .ok (some rule) => some (.ok (place rule).action)
      | .ok none => none := by
  induction rules with
  | nil => rfl
  | cons rule rules ih =>
      rw [List.map_cons, List.findSome?_cons, ih, verdict, hPlace, firstMatch]
      cases matchesRule (e rule) domain method path with
      | error error => rfl
      | ok isMatch => cases isMatch <;> rfl

/-- The action is that of the first rule that says something. -/
theorem evaluateRules_eq (config : ProxyConfig)
    (domain method path : JsString) :
    evaluateRules config domain method path =
      ((listing config).findSome? (verdict domain method path)).getD
        (.ok (unmatched config)) := by
  rw [listing, List.findSome?_append, List.findSome?_append,
    findSome?_verdict (e := id) (fun _ => rfl),
    findSome?_verdict (e := id) (fun _ => rfl),
    findSome?_verdict (e := GrantRuleEntry.toRuleEntry) (fun _ => rfl),
    evaluateRules]
  cases firstMatch id domain method path config.deny with
  | error error => rfl
  | ok denied =>
      cases denied with
      | some rule => rfl
      | none =>
          cases firstMatch id domain method path config.allow with
          | error error => rfl
          | ok allowed =>
              cases allowed with
              | some rule => rfl
              | none =>
                  cases firstMatch GrantRuleEntry.toRuleEntry domain method
                      path config.grantRequired with
                  | error error => rfl
                  | ok granted => cases granted <;> rfl

/-! ## Two spellings -/

/-- The first rule that says something says `v`; or none does, and `v` is
what an unmatched host gets. -/
def Says {α β : Type} (f : α → Option β) (rest : β) (rules : List α)
    (v : β) : Prop :=
  (∃ before rule after, rules = before ++ rule :: after ∧
    (∀ other ∈ before, f other = none) ∧ f rule = some v) ∨
  ((∀ rule ∈ rules, f rule = none) ∧ v = rest)

theorem says_iff {α β : Type} {f : α → Option β} {rest v : β}
    {rules : List α} :
    Says f rest rules v ↔ (rules.findSome? f).getD rest = v := by
  cases hFirst : rules.findSome? f with
  | none =>
      have hNone := List.findSome?_eq_none_iff.mp hFirst
      constructor
      · rintro (⟨before, rule, after, rfl, -, hRule⟩ | ⟨-, rfl⟩)
        · rw [hNone rule (by simp)] at hRule
          cases hRule
        · rfl
      · rintro rfl
        exact Or.inr ⟨hNone, rfl⟩
  | some w =>
      obtain ⟨before, rule, after, rfl, hRule, hBefore⟩ :=
        List.findSome?_eq_some_iff.mp hFirst
      constructor
      · rintro (⟨before', rule', after', hSame, hBefore', hRule'⟩ | ⟨hNone, -⟩)
        · rw [hSame, List.findSome?_append,
            List.findSome?_eq_none_iff.mpr hBefore', Option.none_or,
            List.findSome?_cons, hRule'] at hFirst
          exact (Option.some.inj hFirst).symm
        · rw [hNone rule (by simp)] at hRule
          cases hRule
      · rintro rfl
        exact Or.inl ⟨before, rule, after, rfl, hBefore, hRule⟩

/-- The first rule that says something of either spelling says `v` of the
one, and from there on the rules do not say `v` of the other. -/
def Misses {α β : Type} (f g : α → Option β) (rest : β) (rules : List α) :
    Prop :=
  ∃ before rule after v, rules = before ++ rule :: after ∧
    (∀ other ∈ before, f other = none ∧ g other = none) ∧
    f rule = some v ∧ ¬Says g rest (rule :: after) v

theorem misses_cons_of_none {α β : Type} {f g : α → Option β} {rest : β}
    {rule : α} {rules : List α} (hf : f rule = none) (hg : g rule = none) :
    Misses f g rest (rule :: rules) ↔ Misses f g rest rules := by
  constructor
  · rintro ⟨before, found, after, v, hPlace, hBefore, hFound, hMiss⟩
    cases before with
    | nil =>
        cases hPlace
        rw [hf] at hFound
        cases hFound
    | cons first before =>
        cases hPlace
        exact ⟨before, found, after, v, rfl,
          fun other hOther => hBefore other (by simp [hOther]), hFound, hMiss⟩
  · rintro ⟨before, found, after, v, rfl, hBefore, hFound, hMiss⟩
    exact ⟨rule :: before, found, after, v, rfl,
      List.forall_mem_cons.mpr ⟨⟨hf, hg⟩, hBefore⟩, hFound, hMiss⟩

/-- At a rule that says something of one spelling, the other is missed
exactly when it gets another action. -/
theorem misses_cons_of_some {α β : Type} {f g : α → Option β} {rest v : β}
    {rule : α} {rules : List α} (hf : f rule = some v) :
    Misses f g rest (rule :: rules) ↔ ¬Says g rest (rule :: rules) v := by
  constructor
  · rintro ⟨before, found, after, w, hPlace, hBefore, hFound, hMiss⟩
    cases before with
    | nil =>
        cases hPlace
        rw [hf] at hFound
        cases hFound
        exact hMiss
    | cons first before =>
        cases hPlace
        rw [(hBefore rule (by simp)).1] at hf
        cases hf
  · intro hMiss
    exact ⟨[], rule, rules, v, rfl, by simp, hf, hMiss⟩

theorem not_misses_cons {α β : Type} {f g : α → Option β} {rest w : β}
    {rule : α} {rules : List α} (hf : f rule = none) (hg : g rule = some w) :
    ¬Misses f g rest (rule :: rules) := by
  rintro ⟨before, found, after, v, hPlace, hBefore, hFound, -⟩
  cases before with
  | nil =>
      cases hPlace
      rw [hf] at hFound
      cases hFound
  | cons first before =>
      cases hPlace
      rw [(hBefore rule (by simp)).2] at hg
      cases hg

theorem says_same_iff {α β : Type} {f g : α → Option β} {rest : β}
    {rules : List α} :
    (rules.findSome? f).getD rest = (rules.findSome? g).getD rest ↔
      ¬Misses f g rest rules ∧ ¬Misses g f rest rules := by
  induction rules with
  | nil =>
      refine iff_of_true rfl ⟨?_, ?_⟩
      · rintro ⟨before, rule, after, v, hPlace, -⟩
        exact absurd hPlace (by simp)
      · rintro ⟨before, rule, after, v, hPlace, -⟩
        exact absurd hPlace (by simp)
  | cons rule rules ih =>
      cases hf : f rule with
      | none =>
          cases hg : g rule with
          | none =>
              rw [misses_cons_of_none hf hg, misses_cons_of_none hg hf, ← ih,
                List.findSome?_cons, List.findSome?_cons, hf, hg]
          | some w =>
              rw [misses_cons_of_some hg, not_not, says_iff,
                List.findSome?_cons (f := g), hg]
              exact ⟨fun hSame => ⟨not_misses_cons hf hg, hSame⟩, And.right⟩
      | some v =>
          rw [misses_cons_of_some hf, not_not, says_iff,
            List.findSome?_cons (f := f), hf]
          refine ⟨fun hSame => ⟨hSame.symm, ?_⟩, fun hBoth => hBoth.1.symm⟩
          cases hg : g rule with
          | none => exact not_misses_cons hg hf
          | some w =>
              rw [misses_cons_of_some hg, not_not, says_iff,
                List.findSome?_cons, hf]
              rw [List.findSome?_cons, hg] at hSame
              exact hSame

section Spellings

variable [CaseMapping]

/-- The hosts of two requests, which differ only in the case of letters. -/
structure Spellings where
  host : JsString
  host' : JsString
  same : CaseMapping.toLowerCase host = CaseMapping.toLowerCase host'

/-- The two requests get the same action, on whichever way each arrives. -/
def SameAction (urlHost : JsString → JsString) (config : ProxyConfig)
    (method path : JsString) (way way' : Way) (pair : Spellings) : Prop :=
  evaluateRules config (domainOf urlHost way pair.host) method path =
    evaluateRules config (domainOf urlHost way' pair.host') method path

/-- The first rule that says something of one of two domains, and the rules
from it on, treat the other in another way. -/
def ToldApart (config : ProxyConfig) (method path : JsString)
    (domain domain' : JsString) : Prop :=
  Misses (verdict domain method path) (verdict domain' method path)
    (.ok (unmatched config)) (listing config)

end Spellings

end OpenApe.Ports.ProxyMatcher
