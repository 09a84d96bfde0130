import OpenApe.Ports.CliPermissions

/-!
# Coverage is a preorder

`cliAuthorizationDetailCovers` compares chains entry by entry, and each entry
by its normalised selector.  An entry covers another when every key it binds
is bound on the other side to a matching value (`resourceRefCovers_iff`), so
the preorder laws reduce to those of one selector value, where the middle
value is read once as text and once as a glob.

A granted value is meant as a glob whose `*` takes any text;
`selectorValueMatches_iff_globInstance_iff` says where it is read so.
-/

namespace OpenApe.Ports.CliPermissionsCoverage

open Verified.JsText Verified.Glob Verified.RegExpSource
open GrantTypes CliPermissions

/-! ## One selector value -/

theorem selectorValueMatches_trans {a b c : JsString}
    (hab : selectorValueMatches a b = true)
    (hbc : selectorValueMatches b c = true) :
    selectorValueMatches a c = true := by
  rw [selectorValueMatches_eq_true_iff] at hab hbc ⊢
  rcases hab with ⟨ha, rfl⟩ | ⟨ha, hlen, hab⟩
  · exact hbc
  · refine .inr ⟨ha, hlen, ?_⟩
    rcases hbc with ⟨_, rfl⟩ | ⟨_, _, hbc⟩
    · exact hab
    · exact matches_tokens_trans _ hab hbc

/-- A value within the cap matches itself: each `*` may stand for `*`. -/
theorem selectorValueMatches_self {value : JsString}
    (h : unit '*' ∈ value → value.length ≤ 256) :
    selectorValueMatches value value = true := by
  rw [selectorValueMatches_eq_true_iff]
  by_cases hstar : unit '*' ∈ value
  · exact .inr ⟨hstar, h hstar, matches_tokens_self _ (by decide) value⟩
  · exact .inl ⟨hstar, rfl⟩

/-! ### Read as a glob

The dot of the compiled source stops at line terminators, so a `*` stands
for less than any text.
-/

/-- The granted value with each `*` replaced by some text. -/
def GlobInstance (granted required : JsString) : Prop :=
  ∃ runs : List JsString, required = fill (unit '*') granted runs

theorem globInstance_iff_matches (granted required : JsString) :
    GlobInstance granted required ↔
      Matches (fun _ => true) (tokens (unit '*') granted) required := by
  rw [matches_tokens_iff_fill]
  simp [GlobInstance]

/-- A value without `*` has one instance, itself. -/
theorem globInstance_iff_eq {granted : JsString} (h : unit '*' ∉ granted)
    (required : JsString) :
    GlobInstance granted required ↔ granted = required := by
  have hFill : ∀ runs, fill (unit '*') granted runs = granted := by
    intro runs
    induction granted with
    | nil => rfl
    | cons u granted ih =>
        simp only [List.mem_cons, not_or] at h
        have hu : u ≠ unit '*' := fun hEq => h.1 hEq.symm
        simp [fill, hu, ih h.2]
  simp only [GlobInstance, hFill, exists_const]
  exact eq_comm

/-- The number of line terminators in a value. -/
def lineTerminators (value : JsString) : Nat := value.countP isLineTerminator

/-- **Where a granted value is read as its glob**: everywhere but at the
instances with more line terminators than the granted value writes out. -/
theorem selectorValueMatches_iff_globInstance_iff
    (granted required : JsString) (hLength : granted.length ≤ 256) :
    (selectorValueMatches granted required = true ↔
        GlobInstance granted required) ↔
      ¬(GlobInstance granted required ∧
        lineTerminators granted < lineTerminators required) := by
  rw [selectorValueMatches_eq_true_iff]
  by_cases hStar : unit '*' ∈ granted
  · have hRead : (unit '*' ∉ granted ∧ granted = required ∨
        unit '*' ∈ granted ∧ granted.length ≤ 256 ∧
          Matches dot (tokens (unit '*') granted) required) ↔
        Matches dot (tokens (unit '*') granted) required := by
      simp [hStar, hLength]
    rw [hRead, globInstance_iff_matches]
    by_cases hInstance :
        Matches (fun _ => true) (tokens (unit '*') granted) required
    · have hStarPlain : isLineTerminator (unit '*') = false := by decide
      have hCount := matches_not_iff_countP_le hStarPlain hInstance
      simp only [hInstance, iff_true, true_and, not_lt]
      exact hCount
    · have hNot : ¬Matches dot (tokens (unit '*') granted) required :=
        fun h => hInstance (h.mono (by simp))
      simp [hInstance, hNot]
  · rw [globInstance_iff_eq hStar]
    constructor
    · rintro _ ⟨rfl, hLess⟩
      exact absurd hLess (lt_irrefl _)
    · intro _
      simp [hStar]

/-- `a*` with a line break in its run. -/
theorem selectorValueMatches_iff_globInstance_iff_line :
    (js "a*").length ≤ 256 ∧
      ((selectorValueMatches (js "a*") (js "a\nb") = true ↔
        GlobInstance (js "a*") (js "a\nb")) ↔
      ¬(GlobInstance (js "a*") (js "a\nb") ∧
        lineTerminators (js "a*") < lineTerminators (js "a\nb"))) :=
  ⟨by decide, selectorValueMatches_iff_globInstance_iff _ _ (by decide)⟩

/-- A granted `a*` does not take a line break. -/
theorem selectorValueMatches_lineBreak :
    ¬∀ granted required : JsString, granted.length ≤ 256 →
      (selectorValueMatches granted required = true ↔
        GlobInstance granted required) := by
  intro hGlob
  have hRead := (hGlob (js "a*") (js "a\nb") (by decide)).mpr
    ⟨[js "\nb"], by decide⟩
  exact absurd hRead (by decide)

/-! ## One chain entry -/

section Laws

variable [Collation]

/-- The value a selector binds to `key`, once normalised. -/
def selectorValue (selector : Option Record) (key : JsString) :
    Option JsString :=
  (normalizeSelector selector).bind (fun r => r.get key)

/-- Normalising keeps exactly the non-empty entries. -/
theorem selectorValue_eq_some_iff (selector : Option Record)
    (key value : JsString) :
    selectorValue selector key = some value ↔
      ∃ r, selector = some r ∧ (key, value) ∈ r.entries ∧ value ≠ [] := by
  cases selector with
  | none => simp [selectorValue, normalizeSelector]
  | some r =>
      have hmem : (key, value) ∈ selectorEntries r ↔
          (key, value) ∈ r.entries ∧ value ≠ [] := by
        rw [selectorEntries, (sortByKey_perm _).mem_iff]
        simp
      by_cases hempty : selectorEntries r = []
      · have hnone : ¬ ((key, value) ∈ r.entries ∧ value ≠ []) := by
          rw [← hmem, hempty]
          simp
        simpa [selectorValue, normalizeSelector, hempty] using hnone
      · simp only [selectorValue, normalizeSelector, if_neg hempty,
          Option.bind_some, Record.get_eq_some_iff, Record.mem_fromEntries,
          hmem, Option.some.injEq, exists_eq_left']

/-- A chain entry covers another exactly when the resources agree and every
key the covering selector binds is bound to a matching value. -/
theorem resourceRefCovers_iff (granted required : CliResourceRef) :
    resourceRefCovers granted required = true ↔
      granted.resource = required.resource ∧
      ∀ key value, selectorValue granted.selector key = some value →
        ∃ req, selectorValue required.selector key = some req ∧
          selectorValueMatches value req = true := by
  unfold resourceRefCovers selectorValue
  by_cases hres : granted.resource = required.resource
  · simp only [hres, ne_eq, not_true_eq_false, if_false, true_and]
    cases hg : normalizeSelector granted.selector with
    | none => simp
    | some g =>
        cases hr : normalizeSelector required.selector with
        | none =>
            have hbound := normalizeSelector_ne_empty hg
            obtain ⟨e, rest, he⟩ := List.exists_cons_of_ne_nil hbound
            have hget : g.get e.1 = some e.2 :=
              (Record.get_eq_some_iff _ _ _).mpr (by simp [he])
            simp only [Bool.false_eq_true, Option.bind_some,
              Option.bind_none, reduceCtorEq, false_and, exists_false,
              false_iff]
            intro hall
            exact hall _ _ hget
        | some r =>
            simp only [List.all_eq_true, Option.bind_some,
              Record.get_eq_some_iff, Prod.forall]
            refine forall₂_congr fun key value => imp_congr_right fun _ => ?_
            cases hreq : r.get key with
            | none =>
                have hfree : ∀ w, (key, w) ∉ r.entries := by
                  intro w hw
                  rw [← Record.get_eq_some_iff, hreq] at hw
                  exact absurd hw (by simp)
                simp [hfree]
            | some req =>
                have huniq : ∀ w, (key, w) ∈ r.entries ↔ w = req := by
                  intro w
                  rw [← Record.get_eq_some_iff, hreq, Option.some.injEq,
                    eq_comm]
                simp [huniq]
  · simp [hres]

theorem resourceRefCovers_trans {a b c : CliResourceRef}
    (hab : resourceRefCovers a b = true)
    (hbc : resourceRefCovers b c = true) : resourceRefCovers a c = true := by
  rw [resourceRefCovers_iff] at hab hbc ⊢
  refine ⟨hab.1.trans hbc.1, fun key value hvalue => ?_⟩
  obtain ⟨middle, hmiddle, hfirst⟩ := hab.2 key value hvalue
  obtain ⟨req, hreq, hsecond⟩ := hbc.2 key middle hmiddle
  exact ⟨req, hreq, selectorValueMatches_trans hfirst hsecond⟩

/-- Every globbed selector value of the resource is within the cap. -/
def GlobsWithinCap (resource : CliResourceRef) : Prop :=
  ∀ selector, resource.selector = some selector →
    ∀ e ∈ selector.entries, unit '*' ∈ e.2 → e.2.length ≤ 256

theorem resourceRefCovers_self {resource : CliResourceRef}
    (h : GlobsWithinCap resource) :
    resourceRefCovers resource resource = true := by
  rw [resourceRefCovers_iff]
  refine ⟨rfl, fun key value hvalue => ⟨value, hvalue, ?_⟩⟩
  obtain ⟨selector, hsel, hmem, _⟩ :=
    (selectorValue_eq_some_iff _ _ _).mp hvalue
  exact selectorValueMatches_self (h selector hsel _ hmem)

/-! ## Chains and details -/

theorem resourceChainCovers_length {a b : List CliResourceRef}
    (h : resourceChainCovers a b = true) : a.length ≤ b.length := by
  induction a generalizing b with
  | nil => simp
  | cons x a ih =>
      cases b with
      | nil => simp [resourceChainCovers] at h
      | cons y b =>
          simp only [resourceChainCovers, Bool.and_eq_true] at h
          simpa using ih h.2

/-- A covering chain covers entry by entry. -/
theorem resourceChainCovers_getElem? {a b : List CliResourceRef}
    (h : resourceChainCovers a b = true) {i : Nat} {x : CliResourceRef}
    (hx : a[i]? = some x) :
    ∃ y, b[i]? = some y ∧ resourceRefCovers x y = true := by
  induction a generalizing b i with
  | nil => simp at hx
  | cons first a ih =>
      cases b with
      | nil => simp [resourceChainCovers] at h
      | cons y b =>
          simp only [resourceChainCovers, Bool.and_eq_true] at h
          cases i with
          | zero =>
              simp only [List.getElem?_cons_zero, Option.some.injEq] at hx
              subst hx
              exact ⟨y, rfl, h.1⟩
          | succ i => exact ih h.2 (by simpa using hx)

/-- A chain covers another that is as long and covered entry by entry. -/
theorem resourceChainCovers_iff {a b : List CliResourceRef} :
    resourceChainCovers a b = true ↔ a.length ≤ b.length ∧
      ∀ (i : Nat) (x y : CliResourceRef), a[i]? = some x →
        b[i]? = some y → resourceRefCovers x y = true := by
  constructor
  · intro h
    refine ⟨resourceChainCovers_length h, fun i x y hx hy => ?_⟩
    obtain ⟨z, hz, hCovers⟩ := resourceChainCovers_getElem? h hx
    obtain rfl : z = y := Option.some.inj (hz.symm.trans hy)
    exact hCovers
  · rintro ⟨hLength, hEntries⟩
    induction a generalizing b with
    | nil => rfl
    | cons first a ih =>
        cases b with
        | nil => simp at hLength
        | cons y b =>
            simp only [resourceChainCovers, Bool.and_eq_true]
            refine ⟨hEntries 0 first y rfl rfl, ih (by simpa using hLength) ?_⟩
            intro i x z hx hz
            exact hEntries (i + 1) x z (by simpa using hx) (by simpa using hz)

theorem resourceChainCovers_trans {a b c : List CliResourceRef}
    (hab : resourceChainCovers a b = true)
    (hbc : resourceChainCovers b c = true) :
    resourceChainCovers a c = true := by
  induction a generalizing b c with
  | nil => rfl
  | cons x a ih =>
      cases b with
      | nil => simp [resourceChainCovers] at hab
      | cons y b =>
          cases c with
          | nil => simp [resourceChainCovers] at hbc
          | cons z c =>
              simp only [resourceChainCovers, Bool.and_eq_true] at hab hbc ⊢
              exact ⟨resourceRefCovers_trans hab.1 hbc.1, ih hab.2 hbc.2⟩

theorem resourceChainCovers_self {chain : List CliResourceRef}
    (h : ∀ resource ∈ chain, GlobsWithinCap resource) :
    resourceChainCovers chain chain = true := by
  induction chain with
  | nil => rfl
  | cons x chain ih =>
      simp only [resourceChainCovers, Bool.and_eq_true]
      exact ⟨resourceRefCovers_self (h x (by simp)),
        ih (fun y hy => h y (by simp [hy]))⟩

/-- What coverage of details compares; the length test is implied. -/
theorem cliAuthorizationDetailCovers_iff
    (granted required : CliAuthorizationDetail) :
    cliAuthorizationDetailCovers granted required = true ↔
      granted.cliId = required.cliId ∧ granted.action = required.action ∧
      resourceChainCovers granted.resourceChain required.resourceChain =
        true := by
  unfold cliAuthorizationDetailCovers
  by_cases hcli : granted.cliId = required.cliId
  · by_cases haction : granted.action = required.action
    · by_cases hlen :
          granted.resourceChain.length > required.resourceChain.length
      · have hfalse : ¬ resourceChainCovers granted.resourceChain
            required.resourceChain = true := fun h => by
          have := resourceChainCovers_length h
          omega
        simpa [hcli, haction, hlen] using hfalse
      · simp [hcli, haction, hlen]
    · simp [hcli, haction]
  · simp [hcli]

theorem cliAuthorizationDetailCovers_trans {a b c : CliAuthorizationDetail}
    (hab : cliAuthorizationDetailCovers a b = true)
    (hbc : cliAuthorizationDetailCovers b c = true) :
    cliAuthorizationDetailCovers a c = true := by
  rw [cliAuthorizationDetailCovers_iff] at hab hbc ⊢
  exact ⟨hab.1.trans hbc.1, hab.2.1.trans hbc.2.1,
    resourceChainCovers_trans hab.2.2 hbc.2.2⟩

theorem cliAuthorizationDetailCovers_self {detail : CliAuthorizationDetail}
    (h : ∀ resource ∈ detail.resourceChain, GlobsWithinCap resource) :
    cliAuthorizationDetailCovers detail detail = true := by
  rw [cliAuthorizationDetailCovers_iff]
  exact ⟨rfl, rfl, resourceChainCovers_self h⟩

/-- **Coverage is a preorder** on the details whose globs are within the
cap, and transitive on all details: what a widened or standing detail covers
is covered by every detail that covers it. -/
theorem coverage_preorder :
    (∀ a b c : CliAuthorizationDetail,
      cliAuthorizationDetailCovers a b = true →
      cliAuthorizationDetailCovers b c = true →
      cliAuthorizationDetailCovers a c = true) ∧
    (∀ detail : CliAuthorizationDetail,
      (∀ resource ∈ detail.resourceChain, GlobsWithinCap resource) →
      cliAuthorizationDetailCovers detail detail = true) :=
  ⟨fun _ _ _ => cliAuthorizationDetailCovers_trans,
    fun _ => cliAuthorizationDetailCovers_self⟩

end Laws

/-- Listing repositories whose name is `name`. -/
def repoDetail (name : JsString) : CliAuthorizationDetail where
  cliId := js "gh"
  operationId := js "repo.list"
  resourceChain :=
    [{ resource := js "repo", selector := some ⟨[(js "name", name)], by simp⟩ }]
  action := js "list"
  permission := []
  display := js "List repositories"
  risk := .low

/-- The laws at work on three nested globs. -/
theorem coverage_preorder_repo :
    @cliAuthorizationDetailCovers codeUnitCollation
        (repoDetail (js "*")) (repoDetail (js "openape")) = true ∧
      @cliAuthorizationDetailCovers codeUnitCollation
        (repoDetail (js "open*")) (repoDetail (js "open*")) = true :=
  ⟨(@coverage_preorder codeUnitCollation).1 _ (repoDetail (js "open*")) _
      (by decide) (by decide),
    (@coverage_preorder codeUnitCollation).2 _ (by
      intro resource hresource selector hselector e he _
      simp only [repoDetail, List.mem_singleton] at hresource
      subst hresource
      simp only [Option.some.injEq] at hselector
      subst hselector
      simp only [List.mem_singleton] at he
      subst he
      decide)⟩

end OpenApe.Ports.CliPermissionsCoverage
