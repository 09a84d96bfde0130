import OpenApe.Ports.ShapeMatcher
import OpenApe.Verified.Fallible

/-!
# Rendering templates

When the templates of an operation render.  A template renders exactly when
every binding it names resolves, and a chain when it is well formed and its
templates render; what a binding has to be is said by `Resolves`.
-/

namespace OpenApe.Ports.ShapeTemplates

open Verified.JsText Verified.JsText.Record Verified.Fallible
open GrantTypes ShapeMatcher

/-! ## One binding -/

/-- `owner/name`: the first two parts between slashes are not empty. -/
def OwnerNameForm (value : JsString) : Prop :=
  ((value.splitOn (unit '/'))[0]?.getD []) ≠ [] ∧
    ((value.splitOn (unit '/'))[1]?.getD []) ≠ []

instance (value : JsString) : Decidable (OwnerNameForm value) :=
  inferInstanceAs (Decidable (_ ∧ _))

/-- A transform that the renderer supports. -/
def SupportedTransform (transform : Option JsString) : Prop :=
  transform = none ∨ transform = some (js "owner") ∨
    transform = some (js "name")

/-- The binding a token names has a value that the token's transform can
take. -/
def Served (bindings : Record) (token : BindingToken) : Prop :=
  ∃ property, bindings.read token.name = some property ∧
    property.truthy = true ∧
    (token.transform = none ∨
      ∃ value, property = .text value ∧ OwnerNameForm value)

/-- The token resolves. -/
def Resolves (bindings : Record) (token : BindingToken) : Prop :=
  SupportedTransform token.transform ∧ Served bindings token

/-- What a transformed binding renders to, when it does. -/
private theorem isOk_transform {value transform name : JsString} :
    (let parts := value.splitOn (unit '/')
     let owner := parts[0]?.getD []
     let repo := parts[1]?.getD []
     if owner.isEmpty || repo.isEmpty then
      (.error (plainError (js "Binding " ++ name ++
        js " must be in owner/name form")) : Except JsError JsString)
     else .ok (if transform = js "owner" then owner else repo)).isOk = true ↔
      OwnerNameForm value := by
  simp only [OwnerNameForm]
  by_cases hOwner : (value.splitOn (unit '/'))[0]?.getD [] = []
  · simp [hOwner]
  · by_cases hRepo : (value.splitOn (unit '/'))[1]?.getD [] = []
    · simp [hRepo]
    · simp [hOwner, hRepo]

theorem resolveBindingToken_isOk_iff (expression : JsString)
    (bindings : Record) :
    (resolveBindingToken expression bindings).isOk = true ↔
      ∀ token, bindingToken expression = some token →
        Resolves bindings token := by
  unfold resolveBindingToken
  cases hToken : bindingToken expression with
  | none => simp
  | some token =>
      simp only [Option.some.injEq, forall_eq', Resolves, Served]
      cases hRead : bindings.read token.name with
      | none => simp
      | some property =>
          simp only [Option.filter_some]
          cases hTruthy : property.truthy with
          | false => simp [hTruthy]
          | true =>
              simp only [if_true, Option.some.injEq, exists_eq_left',
                hTruthy, true_and]
              cases hTransform : token.transform with
              | none => simp [SupportedTransform]
              | some transform =>
                  simp only [SupportedTransform, Option.some.injEq,
                    reduceCtorEq, false_or]
                  by_cases hKnown :
                      transform = js "owner" ∨ transform = js "name"
                  · simp only [hKnown, if_true, true_and]
                    cases property with
                    | inherited member => simp
                    | text value =>
                        simp only [Property.text.injEq, exists_eq_left']
                        exact isOk_transform
                  · simp [hKnown]

/-! ## Templates -/

/-- The expressions in braces of a template. -/
def templateTokens (template : JsString) : List BindingToken :=
  (templateParts none template).filterMap (fun
    | .literal _ => none
    | .expression text => bindingToken text)

/-- **A template renders** exactly when every binding it names resolves. -/
theorem renderTemplate_isOk_iff (template : JsString) (bindings : Record) :
    (renderTemplate template bindings).isOk = true ↔
      ∀ token ∈ templateTokens template, Resolves bindings token := by
  unfold renderTemplate templateTokens
  rw [isOk_bind_pure, isOk_mapM]
  simp only [List.mem_filterMap, forall_exists_index, and_imp]
  constructor
  · intro h token part hMem hToken
    cases part with
    | literal text => cases hToken
    | expression text =>
        exact (resolveBindingToken_isOk_iff text bindings).mp
          (h _ hMem) token hToken
  · intro h part hMem
    cases part with
    | literal text => rfl
    | expression text =>
        exact (resolveBindingToken_isOk_iff text bindings).mpr
          (fun token hToken => h token _ hMem hToken)

/-! ## Resource chains -/

/-- The bindings a selector segment names. -/
def segmentTokens (segment : JsString) : List BindingToken :=
  match selectorSegment segment with
  | none => []
  | some (_, rawValue) => templateTokens rawValue

/-- The bindings a chain entry names. -/
def entryTokens (entry : JsString) : List BindingToken :=
  if (chainEntry entry).2 = js "*" then []
  else ((chainEntry entry).2.splitOn (unit ',')).flatMap segmentTokens

/-- The bindings that the templates of an operation name. -/
def operationTokens (operation : ShapeMatchOperation) : List BindingToken :=
  operation.resourceChain.flatMap entryTokens ++
    templateTokens operation.display

theorem renderSegment_isOk_iff (bindings : Record) (segment : JsString) :
    (renderSegment bindings segment).isOk = true ↔
      (selectorSegment segment).isSome = true ∧
        ∀ token ∈ segmentTokens segment, Resolves bindings token := by
  unfold renderSegment segmentTokens
  cases selectorSegment segment with
  | none => simp
  | some pair =>
      simp only [isOk_bind_pure, renderTemplate_isOk_iff, Option.isSome_some,
        true_and]

theorem isOk_assert_segments (entry selectorSpec : JsString) :
    ((selectorSpec.splitOn (unit ',')).forM (fun segment =>
      match selectorSegment segment with
      | none =>
          (throw (plainError (js "Invalid selector segment in " ++ entry ++
            js ": " ++ segment ++ js " (use key=value)")) :
              Except JsError Unit)
      | some _ => pure ())).isOk = true ↔
      ∀ segment ∈ selectorSpec.splitOn (unit ','),
        (selectorSegment segment).isSome = true := by
  rw [isOk_forM]
  refine forall₂_congr (fun segment _ => ?_)
  cases selectorSegment segment <;> simp

/-- A chain entry whose shape the publish-time check accepts. -/
def EntryWellFormed (entry : JsString) : Prop :=
  isResourceName (chainEntry entry).1 = true ∧
    ((chainEntry entry).2 = js "*" ∨
      ∀ segment ∈ (chainEntry entry).2.splitOn (unit ','),
        (selectorSegment segment).isSome = true)

theorem assertResourceChainTemplates_isOk_iff (chain : List JsString) :
    (assertResourceChainTemplates chain).isOk = true ↔
      ∀ entry ∈ chain, EntryWellFormed entry := by
  unfold assertResourceChainTemplates
  rw [isOk_forM]
  refine forall₂_congr (fun entry _ => ?_)
  unfold EntryWellFormed
  cases hName : isResourceName (chainEntry entry).1 with
  | false => simp [hName]
  | true =>
      by_cases hSpec : (chainEntry entry).2 = js "*"
      · simp [hName, hSpec]
      · simp only [hSpec, hName, Bool.not_true, Bool.false_eq_true, if_false,
          true_and, false_or]
        exact isOk_assert_segments entry _

theorem parseChainEntry_isOk_iff (bindings : Record) (entry : JsString) :
    (parseChainEntry bindings entry).isOk = true ↔
      EntryWellFormed entry ∧
        ∀ token ∈ entryTokens entry, Resolves bindings token := by
  unfold parseChainEntry EntryWellFormed entryTokens
  cases hName : isResourceName (chainEntry entry).1 with
  | false => simp [hName]
  | true =>
      by_cases hSpec : (chainEntry entry).2 = js "*"
      · simp [hName, hSpec]
      · simp only [hSpec, hName, Bool.not_true, Bool.false_eq_true, if_false,
          isOk_bind_pure, isOk_mapM, renderSegment_isOk_iff,
          List.mem_flatMap, true_and, false_or]
        constructor
        · intro h
          refine ⟨fun segment hMem => (h segment hMem).1, ?_⟩
          rintro token ⟨segment, hMem, hToken⟩
          exact (h segment hMem).2 token hToken
        · rintro ⟨hSegments, hTokens⟩ segment hMem
          exact ⟨hSegments segment hMem, fun token hToken =>
            hTokens token ⟨segment, hMem, hToken⟩⟩

/-- **A chain renders** exactly when it is well formed and every binding it
names resolves. -/
theorem parseResourceChain_isOk_iff (chain : List JsString)
    (bindings : Record) :
    (parseResourceChain chain bindings).isOk = true ↔
      (assertResourceChainTemplates chain).isOk = true ∧
        ∀ token ∈ chain.flatMap entryTokens, Resolves bindings token := by
  unfold parseResourceChain
  rw [isOk_mapM, assertResourceChainTemplates_isOk_iff]
  simp only [parseChainEntry_isOk_iff, List.mem_flatMap]
  constructor
  · intro h
    refine ⟨fun entry hMem => (h entry hMem).1, ?_⟩
    rintro token ⟨entry, hMem, hToken⟩
    exact (h entry hMem).2 token hToken
  · rintro ⟨hEntries, hTokens⟩ entry hMem
    exact ⟨hEntries entry hMem, fun token hToken =>
      hTokens token ⟨entry, hMem, hToken⟩⟩

/-- **A detail is built** exactly when the chain is well formed and every
binding that a template of the operation names resolves. -/
theorem buildCliAuthDetail_isOk_iff [Collation] (cliId : JsString)
    (operation : ShapeMatchOperation) (bindings : Record) :
    (buildCliAuthDetail cliId operation bindings).isOk = true ↔
      (assertResourceChainTemplates operation.resourceChain).isOk = true ∧
        ∀ token ∈ operationTokens operation, Resolves bindings token := by
  have hParts : (buildCliAuthDetail cliId operation bindings).isOk = true ↔
      (parseResourceChain operation.resourceChain bindings).isOk = true ∧
        (renderTemplate operation.display bindings).isOk = true := by
    unfold buildCliAuthDetail
    rw [isOk_bind]
    simp only [isOk_bind_pure, isOk_iff]
    constructor
    · rintro ⟨chain, hChain, hDisplay⟩
      exact ⟨⟨chain, hChain⟩, hDisplay⟩
    · rintro ⟨⟨chain, hChain⟩, hDisplay⟩
      exact ⟨chain, hChain, hDisplay⟩
  rw [hParts, parseResourceChain_isOk_iff, renderTemplate_isOk_iff, and_assoc,
    operationTokens, List.forall_mem_append]

/-! ## Rendered values -/

/-- What a binding renders to is not empty. -/
theorem resolveBindingToken_ne_nil {expression value : JsString}
    {bindings : Record}
    (h : resolveBindingToken expression bindings = .ok value) :
    value ≠ [] := by
  unfold resolveBindingToken at h
  cases hToken : bindingToken expression with
  | none =>
      rw [hToken] at h
      rw [← Except.ok.inj h]
      exact List.cons_ne_nil _ _
  | some token =>
      rw [hToken] at h
      dsimp only at h
      cases hRead : (bindings.read token.name).filter Property.truthy with
      | none =>
          rw [hRead] at h
          cases h
      | some property =>
          rw [hRead] at h
          dsimp only at h
          have hTruthy := (Option.filter_eq_some_iff.mp hRead).2
          cases hTransform : token.transform with
          | none =>
              rw [hTransform] at h
              rw [← Except.ok.inj h]
              exact Property.toText_ne_nil hTruthy
          | some transform =>
              rw [hTransform] at h
              dsimp only at h
              split at h
              · cases property with
                | inherited member => cases h
                | text text =>
                    dsimp only at h
                    split at h
                    · cases h
                    · rename_i hParts
                      simp only [Bool.or_eq_true, List.isEmpty_iff,
                        not_or] at hParts
                      rw [← Except.ok.inj h]
                      split
                      · exact hParts.1
                      · exact hParts.2
              · cases h

/-- The parts of a template are not empty, and there are some where there is
text. -/
theorem templateParts_literal_ne_nil (pending : Option JsString)
    (template : JsString) :
    .literal [] ∉ templateParts pending template := by
  induction template generalizing pending with
  | nil => cases pending <;> simp [templateParts]
  | cons u rest ih =>
      cases pending with
      | none =>
          unfold templateParts
          split
          · exact ih _
          · simp [ih]
      | some pending =>
          unfold templateParts
          split
          · split <;> simp [ih]
          · exact ih _

theorem templateParts_ne_nil (pending : Option JsString)
    (template : JsString) (h : pending = none → template ≠ []) :
    templateParts pending template ≠ [] := by
  induction template generalizing pending with
  | nil =>
      cases pending with
      | none => exact absurd rfl (h rfl)
      | some pending => simp [templateParts]
  | cons u rest ih =>
      cases pending with
      | none =>
          unfold templateParts
          split
          · exact ih _ (by simp)
          · simp
      | some pending =>
          unfold templateParts
          split
          · simp
          · exact ih _ (by simp)

/-- A template that has text renders to some text. -/
theorem renderTemplate_ne_nil {template value : JsString} {bindings : Record}
    (hTemplate : template ≠ [])
    (h : renderTemplate template bindings = .ok value) : value ≠ [] := by
  obtain ⟨rendered, hParts, hValue⟩ := bind_eq_ok.mp h
  have hParts := mapM_eq_ok.mp hParts
  obtain ⟨part, parts, hFirst⟩ := List.exists_cons_of_ne_nil
    (templateParts_ne_nil none template (fun _ => hTemplate))
  have hLiteral := templateParts_literal_ne_nil none template
  rw [hFirst] at hParts hLiteral
  obtain ⟨text, texts, hText, -, rfl⟩ :=
    List.forall₂_cons_left_iff.mp hParts
  have hSome : text ≠ [] := by
    cases part with
    | literal literal =>
        rintro rfl
        cases Except.ok.inj hText
        exact hLiteral List.mem_cons_self
    | expression expression => exact resolveBindingToken_ne_nil hText
  rw [← Except.ok.inj hValue, List.flatten_cons]
  exact List.append_ne_nil_of_left_ne_nil hSome _

theorem selectorSegment_ne_nil {segment key rawValue : JsString}
    (h : selectorSegment segment = some (key, rawValue)) :
    rawValue ≠ [] := by
  unfold selectorSegment at h
  split at h
  · rename_i key' rawValue' rest hSplit
    by_cases hEmpty : key'.isEmpty || rawValue'.isEmpty
    · rw [if_pos hEmpty] at h
      cases h
    · rw [if_neg hEmpty] at h
      cases h
      rintro rfl
      simp at hEmpty
  · cases h

/-- The selectors of a rendered chain bind no empty value. -/
theorem selector_ne_nil_of_parseResourceChain {chain : List JsString}
    {bindings : Record} {refs : List CliResourceRef}
    (h : parseResourceChain chain bindings = .ok refs)
    {ref : CliResourceRef} (hRef : ref ∈ refs) {selector : Record}
    (hSelector : ref.selector = some selector) {e : JsString × JsString}
    (he : e ∈ selector.entries) : e.2 ≠ [] := by
  obtain ⟨entry, -, hEntry⟩ := exists_of_mem_mapM h hRef
  unfold parseChainEntry at hEntry
  dsimp only at hEntry
  split at hEntry
  · cases hEntry
  · split at hEntry
    · cases Except.ok.inj hEntry
      cases hSelector
    · obtain ⟨pairs, hPairs, hPure⟩ := bind_eq_ok.mp hEntry
      cases Except.ok.inj hPure
      obtain rfl := Option.some.inj hSelector
      obtain ⟨segment, -, hSegment⟩ :=
        exists_of_mem_mapM hPairs (mem_of_mem_ofPairs he)
      unfold renderSegment at hSegment
      split at hSegment
      · cases hSegment
      · rename_i key rawValue hPair
        obtain ⟨value, hValue, hPure⟩ := bind_eq_ok.mp hSegment
        cases Except.ok.inj hPure
        exact renderTemplate_ne_nil (selectorSegment_ne_nil hPair) hValue

end OpenApe.Ports.ShapeTemplates
