import OpenApe.Ports.ShapeTemplates
import Mathlib.Data.List.TakeWhile

/-!
# What a rendered chain shows of the bindings

A value of a resource chain may hold any number of templates, whose texts are
joined without a separator.  So a chain need not tell two binding maps apart
by a value in which several templates differ; it does by every value in which
one template differs (`renderedChains_differ`).

`templateOf` says which text of a chain decides a rendered value: an entry is
read up to its second colon, a segment up to its second equals sign, and of
the segments of one key the last one counts.
-/

namespace OpenApe.Ports.ShapeRendering

open Verified.JsText Verified.JsText.Record Verified.Fallible
open GrantTypes ShapeMatcher

/-! ## Joined texts -/

section Joined

variable {α β : Type}

/-- Where two readings agree but on one item, the lengths of the joined texts
differ as the item's do, once an occurrence. -/
theorem length_flatten_map [DecidableEq α] {f g : α → List β} {a : α}
    {items : List α} (hOther : ∀ b ∈ items, b ≠ a → f b = g b) :
    (items.map f).flatten.length + items.count a * (g a).length =
      (items.map g).flatten.length + items.count a * (f a).length := by
  induction items with
  | nil => simp
  | cons b items ih =>
      have ih := ih (fun c hc => hOther c (List.mem_cons_of_mem _ hc))
      simp only [List.map_cons, List.flatten_cons, List.length_append,
        List.count_cons]
      by_cases hEq : b = a
      · subst hEq
        simp only [beq_self_eq_true, if_true, Nat.add_mul, Nat.one_mul]
        omega
      · have hSame := hOther b List.mem_cons_self hEq
        simp only [beq_iff_eq, hEq, if_false, Nat.add_zero, hSame]
        omega

/-- **Joining loses nothing of one item**: where two readings agree on all
others, the joined texts give the item's text back. -/
theorem eq_of_flatten_map_eq [DecidableEq α] {f g : α → List β} {a : α}
    {items : List α} (hOther : ∀ b ∈ items, b ≠ a → f b = g b)
    (hMem : a ∈ items)
    (h : (items.map f).flatten = (items.map g).flatten) : f a = g a := by
  have hCount := length_flatten_map hOther
  rw [h, Nat.add_left_cancel_iff] at hCount
  have hLength : (f a).length = (g a).length :=
    (Nat.eq_of_mul_eq_mul_left (List.count_pos_iff.mpr hMem) hCount).symm
  clear hCount
  -- the texts before the first occurrence agree and are taken off
  induction items with
  | nil => cases hMem
  | cons b items ih =>
      simp only [List.map_cons, List.flatten_cons] at h
      by_cases hEq : b = a
      · subst hEq
        exact (List.append_inj h hLength).1
      · rw [hOther b List.mem_cons_self hEq] at h
        have hTail : a ∈ items := by
          rcases List.mem_cons.mp hMem with hHead | hTail
          · exact absurd hHead.symm hEq
          · exact hTail
        exact ih (fun c hc => hOther c (List.mem_cons_of_mem _ hc)) hTail
          (List.append_cancel_left h)

end Joined

/-! ## Rendered templates -/

/-- What a template part renders to; nothing where it does not render. -/
def partText (bindings : Record) (part : TemplatePart) : JsString :=
  match renderPart bindings part with
  | .ok text => text
  | .error _ => []

theorem renderTemplate_eq {template value : JsString} {bindings : Record}
    (h : renderTemplate template bindings = .ok value) :
    value = ((templateParts none template).map (partText bindings)).flatten ∧
      ∀ part ∈ templateParts none template,
        renderPart bindings part = .ok (partText bindings part) := by
  obtain ⟨rendered, hParts, hValue⟩ := bind_eq_ok.mp h
  have hTexts : ∀ {parts : List TemplatePart} {texts : List JsString},
      List.Forall₂ (fun part text => renderPart bindings part = .ok text)
        parts texts →
      texts = parts.map (partText bindings) ∧
        ∀ part ∈ parts,
          renderPart bindings part = .ok (partText bindings part) := by
    intro parts texts hAll
    induction hAll with
    | nil => exact ⟨rfl, by simp⟩
    | @cons part text parts texts hFirst _ ih =>
        have hText : partText bindings part = text := by
          rw [partText, hFirst]
        refine ⟨by rw [ih.1, List.map_cons, hText], ?_⟩
        rw [List.forall_mem_cons]
        exact ⟨by rw [hFirst, hText], ih.2⟩
  obtain ⟨hRendered, hOk⟩ := hTexts (mapM_eq_ok.mp hParts)
  exact ⟨by rw [← hRendered]; exact (Except.ok.inj hValue).symm, hOk⟩

/-- A template in which one expression resolves to another text renders to
another text. -/
theorem renderTemplate_ne {template value value' expression : JsString}
    {bindings bindings' : Record}
    (hValue : renderTemplate template bindings = .ok value)
    (hValue' : renderTemplate template bindings' = .ok value')
    (hMem : .expression expression ∈ templateParts none template)
    (hOther : ∀ other, .expression other ∈ templateParts none template →
      other ≠ expression →
      resolveBindingToken other bindings =
        resolveBindingToken other bindings')
    (hDiffer : resolveBindingToken expression bindings ≠
      resolveBindingToken expression bindings') : value ≠ value' := by
  obtain ⟨rfl, hOk⟩ := renderTemplate_eq hValue
  obtain ⟨rfl, hOk'⟩ := renderTemplate_eq hValue'
  intro hEq
  have hSame : ∀ part ∈ templateParts none template,
      part ≠ .expression expression →
      partText bindings part = partText bindings' part := by
    intro part hPart hNe
    cases part with
    | literal text => rfl
    | expression other =>
        have hResolve := hOther other hPart (fun h => hNe (h ▸ rfl))
        simp only [partText, renderPart, hResolve]
  have hText := eq_of_flatten_map_eq hSame hMem hEq
  apply hDiffer
  calc resolveBindingToken expression bindings
      = .ok (partText bindings (.expression expression)) := hOk _ hMem
    _ = .ok (partText bindings' (.expression expression)) := by rw [hText]
    _ = resolveBindingToken expression bindings' := (hOk' _ hMem).symm

/-! ## The values of a chain -/

/-- The keys of an entry with their templates, in order. -/
def entryTemplates (entry : JsString) : List (JsString × JsString) :=
  if (chainEntry entry).2 = js "*" then []
  else ((chainEntry entry).2.splitOn (unit ',')).filterMap selectorSegment

/-- The template that decides what the entry at `index` binds to `key`. -/
def templateOf (chain : List JsString) (index : Nat) (key : JsString) :
    Option JsString :=
  chain[index]?.bind (fun entry => (entryTemplates entry).reverse.lookup key)

/-- What a rendered chain binds to `key` at `index`. -/
def valueAt (refs : List CliResourceRef) (index : Nat) (key : JsString) :
    Option JsString :=
  refs[index]?.bind (fun ref => ref.selector.bind (fun s => s.get key))

/-- Related lists of pairs bind related values to a key. -/
theorem lookup_of_forall₂ {R : JsString → JsString → Prop}
    {templates values : List (JsString × JsString)}
    (h : List.Forall₂ (fun t v => t.1 = v.1 ∧ R t.2 v.2) templates values)
    {key template : JsString} (hKey : templates.lookup key = some template) :
    ∃ value, values.lookup key = some value ∧ R template value := by
  induction h with
  | nil => cases hKey
  | @cons t v templates values hFirst _ ih =>
      obtain ⟨k, text⟩ := t
      obtain ⟨k', text'⟩ := v
      obtain ⟨rfl, hText⟩ : k = k' ∧ R text text' := hFirst
      rw [List.lookup_cons] at hKey ⊢
      cases hHead : key == k with
      | true =>
          rw [hHead] at hKey
          cases hKey
          exact ⟨text', rfl, hText⟩
      | false =>
          rw [hHead] at hKey
          exact ih hKey

/-- A rendered segment has the segment's key and its rendered template. -/
theorem renderSegment_eq_ok {bindings : Record} {segment : JsString}
    {pair : JsString × JsString}
    (h : renderSegment bindings segment = .ok pair) :
    ∃ template, selectorSegment segment = some (pair.1, template) ∧
      renderTemplate template bindings = .ok pair.2 := by
  unfold renderSegment at h
  split at h
  · cases h
  · rename_i key template hSegment
    obtain ⟨value, hValue, hPair⟩ := bind_eq_ok.mp h
    cases hPair
    exact ⟨template, hSegment, hValue⟩

theorem entryTemplates_rendered {bindings : Record}
    {segments : List JsString} {pairs : List (JsString × JsString)}
    (h : segments.mapM (renderSegment bindings) = .ok pairs) :
    List.Forall₂ (fun t v => t.1 = v.1 ∧
        renderTemplate t.2 bindings = .ok v.2)
      (segments.filterMap selectorSegment) pairs := by
  have hAll := mapM_eq_ok.mp h
  clear h
  induction hAll with
  | nil => exact .nil
  | cons hFirst _ ih =>
      obtain ⟨template, hSegment, hTemplate⟩ := renderSegment_eq_ok hFirst
      rw [List.filterMap_cons_some hSegment]
      exact .cons ⟨rfl, hTemplate⟩ ih

/-- **A rendered chain's values** are its deciding templates, rendered. -/
theorem valueAt_of_templateOf {chain : List JsString} {bindings : Record}
    {refs : List CliResourceRef}
    (hRefs : parseResourceChain chain bindings = .ok refs) {index : Nat}
    {key template : JsString}
    (hTemplate : templateOf chain index key = some template) :
    ∃ value, renderTemplate template bindings = .ok value ∧
      valueAt refs index key = some value := by
  obtain ⟨entry, hEntry, hLookup⟩ := Option.bind_eq_some_iff.mp hTemplate
  have hAll := mapM_eq_ok.mp hRefs
  have hLength := (List.getElem?_eq_some_iff.mp hEntry).1
  have hRefLength : index < refs.length := hAll.length_eq ▸ hLength
  have hRef : parseChainEntry bindings entry = .ok refs[index] := by
    have hGet := hAll.get hLength hRefLength
    rw [List.getElem?_eq_getElem hLength] at hEntry
    rw [← Option.some.inj hEntry]
    exact hGet
  unfold entryTemplates at hLookup
  by_cases hSpec : (chainEntry entry).2 = js "*"
  · rw [if_pos hSpec] at hLookup
    cases hLookup
  · rw [if_neg hSpec] at hLookup
    unfold parseChainEntry at hRef
    dsimp only at hRef
    split at hRef
    · cases hRef
    · obtain ⟨pairs, hPairs, hPure⟩ := bind_eq_ok.mp hRef
      obtain ⟨value, hValue, hRendered⟩ := lookup_of_forall₂
        (R := fun t v => renderTemplate t bindings = .ok v)
        (List.rel_reverse (entryTemplates_rendered hPairs)) hLookup
      refine ⟨value, hRendered, ?_⟩
      have hSelector : refs[index].selector = some (Record.ofPairs pairs) := by
        rw [← Except.ok.inj hPure]
      rw [valueAt, List.getElem?_eq_getElem hRefLength, Option.bind_some,
        hSelector, Option.bind_some, get_ofPairs, hValue]

/-! ## Names that a value shows -/

/-- The text a name is read as. -/
def bindingText (bindings : Record) (name : JsString) : Option JsString :=
  (bindings.read name).map Property.toText

/-- A name that a template can use: between the opening brace and a bar. -/
def IsBindingName (name : JsString) : Prop := name ≠ [] ∧ unit '|' ∉ name

/-- Some value of the chain uses the expression, and its other expressions
resolve alike in both maps. -/
def Shows (chain : List JsString) (bindings bindings' : Record)
    (expression : JsString) : Prop :=
  ∃ index key template, templateOf chain index key = some template ∧
    .expression expression ∈ templateParts none template ∧
    ∀ other, .expression other ∈ templateParts none template →
      other ≠ expression →
      resolveBindingToken other bindings =
        resolveBindingToken other bindings'

/-- The name is bound to two parts between a slash. -/
def TwoParts (bindings : Record) (name : JsString) : Prop :=
  ∃ value, bindings.get name = some value ∧
    (value.splitOn (unit '/')).length = 2

theorem bindingToken_of_isBindingName {name : JsString}
    (h : IsBindingName name) :
    bindingToken name = some { name } ∧
      ∀ transform, transform ≠ [] →
        bindingToken (name ++ unit '|' :: transform) =
          some { name, transform := some transform } := by
  have hKeep : ∀ u ∈ name, (u != unit '|') = true := by
    intro u hu
    simpa using fun hEq : u = unit '|' => h.2 (hEq ▸ hu)
  have hTake : name.takeWhile (fun u => u != unit '|') = name :=
    List.takeWhile_eq_self_iff.mpr hKeep
  have hDrop : name.dropWhile (fun u => u != unit '|') = [] :=
    List.dropWhile_eq_nil_iff.mpr hKeep
  constructor
  · simp [bindingToken, hTake, hDrop, h.1]
  · intro transform hTransform
    have hTakeAll : (name ++ unit '|' :: transform).takeWhile
        (fun u => u != unit '|') = name := by
      rw [List.takeWhile_append_of_pos hKeep]
      simp
    have hDropAll : (name ++ unit '|' :: transform).dropWhile
        (fun u => u != unit '|') = unit '|' :: transform := by
      rw [List.dropWhile_append_of_pos hKeep]
      simp
    simp [bindingToken, hTakeAll, hDropAll, h.1, hTransform]

/-- `{name}` resolves to the text of its binding. -/
theorem bindingText_of_resolve {bindings : Record} {name text : JsString}
    (hName : IsBindingName name)
    (h : resolveBindingToken name bindings = .ok text) :
    bindingText bindings name = some text := by
  unfold resolveBindingToken at h
  rw [(bindingToken_of_isBindingName hName).1] at h
  dsimp only at h
  cases hRead : bindings.read name with
  | none =>
      rw [hRead] at h
      cases h
  | some property =>
      rw [hRead, Option.filter_some] at h
      cases hTruthy : property.truthy with
      | false =>
          rw [hTruthy] at h
          cases h
      | true =>
          rw [hTruthy] at h
          rw [bindingText, hRead, Option.map_some]
          exact congrArg some (Except.ok.inj h)

/-- What `{name|owner}` and `{name|name}` resolve to: a part of the binding's
own text. -/
theorem part_of_resolve {bindings : Record} {name transform text : JsString}
    (hName : IsBindingName name)
    (hTransform : transform = js "owner" ∨ transform = js "name")
    (h : resolveBindingToken (name ++ unit '|' :: transform) bindings =
      .ok text) :
    ∃ value, bindings.read name = some (.text value) ∧
      text = if transform = js "owner" then
          (value.splitOn (unit '/'))[0]?.getD []
        else (value.splitOn (unit '/'))[1]?.getD [] := by
  have hNonempty : transform ≠ [] := by
    rcases hTransform with rfl | rfl <;> decide
  unfold resolveBindingToken at h
  rw [(bindingToken_of_isBindingName hName).2 _ hNonempty] at h
  dsimp only at h
  cases hRead : (bindings.read name).filter Property.truthy with
  | none =>
      rw [hRead] at h
      cases h
  | some property =>
      rw [hRead] at h
      dsimp only at h
      rw [if_pos hTransform] at h
      cases property with
      | inherited member => cases h
      | text value =>
          refine ⟨value, (Option.filter_eq_some_iff.mp hRead).1, ?_⟩
          dsimp only at h
          split at h
          · cases h
          · exact (Except.ok.inj h).symm

/-- Two parts between a slash are the whole text. -/
theorem eq_of_parts {value value' : JsString}
    (h : (value.splitOn (unit '/')).length = 2)
    (h' : (value'.splitOn (unit '/')).length = 2)
    (hOwner : (value.splitOn (unit '/'))[0]?.getD [] =
      (value'.splitOn (unit '/'))[0]?.getD [])
    (hName : (value.splitOn (unit '/'))[1]?.getD [] =
      (value'.splitOn (unit '/'))[1]?.getD []) : value = value' := by
  obtain ⟨owner, repo, hParts⟩ := List.length_eq_two.mp h
  obtain ⟨owner', repo', hParts'⟩ := List.length_eq_two.mp h'
  rw [hParts, hParts'] at hOwner hName
  have hSame : value.splitOn (unit '/') = value'.splitOn (unit '/') := by
    rw [hParts, hParts', show owner = owner' from hOwner,
      show repo = repo' from hName]
  calc value = [unit '/'].intercalate (value.splitOn (unit '/')) :=
        (List.intercalate_splitOn _).symm
    _ = [unit '/'].intercalate (value'.splitOn (unit '/')) := by rw [hSame]
    _ = value' := List.intercalate_splitOn _

/-! ## The law of rendering -/

section Law

variable {chain : List JsString} {bindings bindings' : Record}
  {refs refs' : List CliResourceRef}
  (hRefs : parseResourceChain chain bindings = .ok refs)
  (hRefs' : parseResourceChain chain bindings' = .ok refs')

include hRefs hRefs'

/-- Where no value differs, an expression that a value shows resolves alike,
and it does resolve. -/
theorem Shows.resolves {expression : JsString}
    (h : Shows chain bindings bindings' expression)
    (hSame : ∀ index key, valueAt refs index key = valueAt refs' index key) :
    ∃ text, resolveBindingToken expression bindings = .ok text ∧
      resolveBindingToken expression bindings' = .ok text := by
  obtain ⟨index, key, template, hTemplate, hMem, hOther⟩ := h
  obtain ⟨value, hValue, hAt⟩ := valueAt_of_templateOf hRefs hTemplate
  obtain ⟨value', hValue', hAt'⟩ := valueAt_of_templateOf hRefs' hTemplate
  obtain rfl : value = value' :=
    Option.some.inj (hAt.symm.trans ((hSame index key).trans hAt'))
  have hAlike : resolveBindingToken expression bindings =
      resolveBindingToken expression bindings' := by
    by_contra hDiffer
    exact renderTemplate_ne hValue hValue' hMem hOther hDiffer rfl
  have hOk := (renderTemplate_eq hValue).2 _ hMem
  exact ⟨_, hOk, hAlike ▸ hOk⟩

/-- **Rendering loses nothing of one template**: a name that some value uses,
whose other templates resolve alike, or whose owner and name parts two such
values use, is told apart by the rendered chains. -/
theorem renderedChains_differ {name : JsString} (hName : IsBindingName name)
    (hDiffer : bindingText bindings name ≠ bindingText bindings' name)
    (hShown : Shows chain bindings bindings' name ∨
      Shows chain bindings bindings' (name ++ js "|owner") ∧
        Shows chain bindings bindings' (name ++ js "|name") ∧
        TwoParts bindings name ∧ TwoParts bindings' name) :
    ∃ index key, valueAt refs index key ≠ valueAt refs' index key := by
  by_contra hSame
  push Not at hSame
  rcases hShown with hPlain | ⟨hOwner, hRepo, hParts, hParts'⟩
  · obtain ⟨text, hText, hText'⟩ := hPlain.resolves hRefs hRefs' hSame
    exact hDiffer ((bindingText_of_resolve hName hText).trans
      (bindingText_of_resolve hName hText').symm)
  · obtain ⟨owner, hOwner, hOwner'⟩ := hOwner.resolves hRefs hRefs' hSame
    obtain ⟨repo, hRepo, hRepo'⟩ := hRepo.resolves hRefs hRefs' hSame
    have hOwnerText : js "|owner" = unit '|' :: js "owner" := by decide
    have hNameText : js "|name" = unit '|' :: js "name" := by decide
    rw [hOwnerText] at hOwner hOwner'
    rw [hNameText] at hRepo hRepo'
    obtain ⟨value, hRead, rfl⟩ := part_of_resolve hName (.inl rfl) hOwner
    obtain ⟨value', hRead', hOwnerEq⟩ :=
      part_of_resolve hName (.inl rfl) hOwner'
    obtain ⟨_, hAgain, rfl⟩ := part_of_resolve hName (.inr rfl) hRepo
    obtain ⟨_, hAgain', hRepoEq⟩ := part_of_resolve hName (.inr rfl) hRepo'
    cases hRead.symm.trans hAgain
    cases hRead'.symm.trans hAgain'
    have hNotOwner : js "name" ≠ js "owner" := by decide
    rw [if_pos rfl, if_pos rfl] at hOwnerEq
    rw [if_neg hNotOwner, if_neg hNotOwner] at hRepoEq
    obtain ⟨own, hOwn, hLength⟩ := hParts
    obtain ⟨own', hOwn', hLength'⟩ := hParts'
    have hText : ∀ {b : Record} {o v : JsString}, b.get name = some o →
        b.read name = some (.text v) → o = v := by
      intro b o v hGet hRead
      rw [Record.read, hGet] at hRead
      exact Property.text.inj (Option.some.inj hRead)
    obtain rfl := hText hOwn hRead
    obtain rfl := hText hOwn' hRead'
    have hWhole : own = own' := eq_of_parts hLength hLength' hOwnerEq hRepoEq
    exact hDiffer (by rw [bindingText, bindingText, hRead, hRead', hWhole])

end Law

/-! ## Two templates in one value -/

/-- A chain entry that names a repository. -/
private def repoEntry : JsString := js "repo:name=\x7brepo\x7d"

/-- The entry with the repository filled in. -/
private def repoRef (key repo : JsString) : CliResourceRef where
  resource := js "repo"
  selector := some (ofPairs [(key, repo)])

/-- Two repositories are told apart. -/
theorem renderedChains_differ_repo :
    ∃ index key, valueAt [repoRef (js "name") (js "api")] index key ≠
      valueAt [repoRef (js "name") (js "web")] index key := by
  refine @renderedChains_differ [repoEntry] (ofPairs [(js "repo", js "api")])
    (ofPairs [(js "repo", js "web")]) _ _
    (by decide) (by decide) (js "repo")
    ⟨by decide, by decide⟩
    (by decide)
    (.inl ⟨0, js "name", js "\x7brepo\x7d", by decide,
      by decide, ?_⟩)
  intro other hOther hNe
  have hOnly : templateParts none (js "\x7brepo\x7d") =
      [.expression (js "repo")] := by decide
  rw [hOnly] at hOther
  exact absurd (TemplatePart.expression.inj (List.mem_singleton.mp hOther)) hNe

/-- The chain's text uses a name as it is, or both its parts. -/
def UsesName (chain : List JsString) (name : JsString) : Prop :=
  (∃ entry ∈ chain, js "\x7b" ++ name ++ js "\x7d" <:+: entry) ∨
  (∃ entry ∈ chain, js "\x7b" ++ name ++ js "|owner\x7d" <:+: entry) ∧
    (∃ entry ∈ chain, js "\x7b" ++ name ++ js "|name\x7d" <:+: entry)

/-- Two templates without a sign between them. -/
private def joinedEntry : JsString := js "repo:path=\x7ba\x7d\x7bb\x7d"

/-- `x` with `yz` and `xy` with `z` render to one chain. -/
theorem not_renderedChains_differ_joined :
    ¬∀ (chain : List JsString) (bindings bindings' : Record)
        (refs refs' : List CliResourceRef) (name : JsString),
      (assertResourceChainTemplates chain).isOk = true →
      parseResourceChain chain bindings = .ok refs →
      parseResourceChain chain bindings' = .ok refs' →
      UsesName chain name →
      bindingText bindings name ≠ bindingText bindings' name →
      ∃ index key, valueAt refs index key ≠ valueAt refs' index key := by
  intro hAll
  have hUses : js "\x7ba\x7d" <:+: joinedEntry :=
    ⟨js "repo:path=", js "\x7bb\x7d", by decide⟩
  obtain ⟨index, key, hDiffer⟩ := hAll [joinedEntry]
    (ofPairs [(js "a", js "x"), (js "b", js "yz")])
    (ofPairs [(js "a", js "xy"), (js "b", js "z")])
    [repoRef (js "path") (js "xyz")] [repoRef (js "path") (js "xyz")]
    (js "a") (by decide) (by decide) (by decide)
    (.inl ⟨joinedEntry, List.mem_singleton_self _, hUses⟩)
    (by decide)
  exact hDiffer rfl

end OpenApe.Ports.ShapeRendering
