import OpenApe.Ports.InboxPublications

/-!
# What the relay accepts of the desktop (`outbox.ts`, `inbox-store.ts`)

The relay accepts the publication of an accepted notification exactly when
three bounds hold that the desktop does not check (`Fits`): the title and the
name of the Pod in UTF-8 bytes, and the links as the URL parser writes them.
-/

namespace OpenApe.Ports.InboxAcceptance

open Verified.Fallible Verified.JsText
open Verified.KeyedTable (nodup_eraseDups)
open Verified.Json Verified.Unicode
open CentralValues CentralCommands
open InboxStore (InboxLink InboxPublication)
open InboxPublications

/-! ## Tags -/

theorem trim_eq_self {text : JsString}
    (h : ∀ u ∈ text, isTrimmed u = false) : trim text = text := by
  have hDrop : ∀ units : JsString, (∀ u ∈ units, isTrimmed u = false) →
      units.dropWhile isTrimmed = units := by
    intro units hUnits
    cases units with
    | nil => rfl
    | cons u rest =>
        exact List.dropWhile_cons_of_neg
          (by simp [hUnits u List.mem_cons_self])
  rw [trim, hDrop text h, trimEnd,
    hDrop text.reverse fun u hu => h u (List.mem_reverse.mp hu),
    List.reverse_reverse]

theorem hyphenate_eq_self {text : JsString}
    (h : ∀ u ∈ text, isTrimmed u = false) : hyphenate text = text := by
  induction text with
  | nil => rfl
  | cons u rest ih =>
      rw [hyphenate, h u List.mem_cons_self,
        if_neg Bool.false_ne_true,
        ih fun v hv => h v (List.mem_cons_of_mem u hv)]

/-- A unit that is no surrogate is a code point of its text. -/
theorem mem_codePoints {text : JsString} {u : CodeUnit} (h : u ∈ text)
    (hHigh : isHighSurrogate u = false) (hLow : isLowSurrogate u = false) :
    u.toNat ∈ codePoints text := by
  induction text using codePoints.induct with
  | case1 => cases h
  | case2 v =>
      rw [List.mem_singleton.mp h]
      exact List.mem_singleton_self _
  | case3 v w rest hPair ih =>
      rw [codePoints, if_pos hPair]
      rw [Bool.and_eq_true] at hPair
      rcases List.mem_cons.mp h with rfl | hRest
      · rw [hHigh] at hPair
        cases hPair.1
      · rcases List.mem_cons.mp hRest with rfl | hMem
        · rw [hLow] at hPair
          cases hPair.2
        · exact List.mem_cons_of_mem _ (ih hMem)
  | case4 v w rest hPair ih =>
      rw [codePoints, if_neg hPair]
      rcases List.mem_cons.mp h with rfl | hRest
      · exact List.mem_cons_self
      · exact List.mem_cons_of_mem _ (ih hRest)

/-- A tag as stored has no white space. -/
theorem isTrimmed_of_tagPattern {runtime : TextRuntime}
    (hLawful : Lawful runtime) {tag : JsString}
    (h : tagPattern runtime tag = true) :
    ∀ u ∈ tag, isTrimmed u = false := by
  intro u hu
  by_contra hSpace
  rw [Bool.not_eq_false] at hSpace
  obtain ⟨hHigh, hLow⟩ := surrogate_of_isTrimmed hSpace
  have hPoint := mem_codePoints hu hHigh hLow
  have hLetter := hLawful.letters u hSpace
  have hHyphen : u.toNat ≠ (unit '-').toNat := by
    intro hEq
    rw [UInt16.toNat_inj.mp hEq] at hSpace
    exact absurd hSpace (by decide)
  rw [tagPattern] at h
  cases hPoints : codePoints tag with
  | nil =>
      rw [hPoints] at hPoint
      cases hPoint
  | cons c cs =>
      rw [hPoints] at h hPoint
      rw [Bool.and_eq_true, List.all_eq_true] at h
      rcases List.mem_cons.mp hPoint with hFirst | hRest
      · rw [← hFirst, hLetter] at h
        cases h.1
      · have hUnit := h.2 _ hRest
        rw [hLetter, Bool.false_or, beq_iff_eq] at hUnit
        exact hHyphen hUnit

theorem normalizeTag_eq_ok {runtime : TextRuntime} {value : Unknown}
    {tag : JsString} (h : normalizeTag runtime value = .ok tag) :
    ∃ text, tag = hyphenate (runtime.lower text) ∧
      tag.isEmpty = false ∧ tag.length ≤ tagLength ∧
      tagPattern runtime tag = true := by
  cases hText : text? value with
  | none =>
      rw [normalizeTag, hText] at h
      cases h
  | some text =>
      simp only [normalizeTag, hText, Option.map_some, Option.getD_some] at h
      split_ifs at h with hRefused
      cases h
      simp only [Bool.or_eq_true, decide_eq_true_eq, Bool.not_eq_true',
        not_or, Bool.not_eq_true, Bool.not_eq_false, Nat.not_lt] at hRefused
      exact ⟨trim text, rfl, hRefused.1.1, hRefused.1.2, hRefused.2⟩

/-- Normalising keeps a tag as stored. -/
theorem normalizeTag_stored {runtime : TextRuntime}
    (hLawful : Lawful runtime) {value : Unknown} {tag : JsString}
    (h : normalizeTag runtime value = .ok tag) :
    normalizeTag runtime (some (.string tag)) = .ok tag := by
  obtain ⟨text, hTag, hNonempty, hLength, hPattern⟩ := normalizeTag_eq_ok h
  have hUnits := isTrimmed_of_tagPattern hLawful hPattern
  have hSame : hyphenate (runtime.lower (trim tag)) = tag := by
    rw [trim_eq_self hUnits]
    have hLower : runtime.lower tag = tag := by
      rw [hTag]
      exact hLawful.lowered text
    rw [hLower, hyphenate_eq_self hUnits]
  rw [normalizeTag]
  simp only [text?, JsonValue.text?, Option.bind_some, Option.map_some,
    Option.getD_some, hSame, hNonempty, hPattern]
  simp [Nat.not_lt.mpr hLength]

theorem hasRepeat_strings {tags : List JsString} (h : tags.Nodup) :
    hasRepeat (tags.map .string) = false := by
  induction tags with
  | nil => rfl
  | cons tag tags ih =>
      obtain ⟨hNew, hRest⟩ := List.nodup_cons.mp h
      rw [List.map_cons, hasRepeat, ih hRest, Bool.or_false,
        List.any_eq_false]
      intro other hOther
      obtain ⟨text, hText, rfl⟩ := List.mem_map.mp hOther
      rw [strictEq, beq_iff_eq]
      rintro rfl
      exact hNew hText

theorem someDiffers_stored {runtime : TextRuntime} {tags : List JsString}
    (h : ∀ tag ∈ tags,
      normalizeTag runtime (some (.string tag)) = .ok tag) :
    someDiffers runtime (tags.map .string) = .ok false := by
  induction tags with
  | nil => rfl
  | cons tag tags ih =>
      have hRest := ih fun other hOther =>
        h other (List.mem_cons_of_mem tag hOther)
      have hText : isText (some (.string tag)) tag = true :=
        isText_iff.mpr rfl
      rw [List.map_cons, someDiffers, h tag List.mem_cons_self]
      refine Eq.trans (if_pos hText) hRest

/-- The relay accepts the tags of a Pod as the desktop stores them. -/
theorem parseInboxTags_stored {runtime : TextRuntime}
    (hLawful : Lawful runtime) {value : Unknown} {tags : List JsString}
    (h : normalizeTags runtime value = .ok tags) :
    parseInboxTags runtime (some (.array (tags.map .string))) = .ok tags := by
  unfold normalizeTags at h
  split at h
  case h_2 => cases h
  case h_1 items =>
    obtain ⟨all, hAll, h⟩ := bind_eq_ok.mp h
    obtain ⟨_, hLimit, h⟩ := bind_eq_ok.mp h
    cases h
    have hBound : all.eraseDups.length ≤ tagsPerItem :=
      Nat.not_lt.mp (of_decide_eq_false (throwIf_eq_ok.mp hLimit))
    have hTwice : ¬2 * tagsPerItem < all.eraseDups.length := by
      have := hBound
      omega
    have hStored : ∀ tag ∈ all.eraseDups,
        normalizeTag runtime (some (.string tag)) = .ok tag := by
      intro tag hTag
      obtain ⟨item, -, hItem⟩ :=
        exists_of_mem_mapM hAll (List.mem_eraseDups.mp hTag)
      exact normalizeTag_stored hLawful hItem
    have hTexts : (all.eraseDups.map JsonValue.string).filterMap
        JsonValue.text? = all.eraseDups := by
      rw [List.filterMap_map]
      exact List.filterMap_some
    rw [parseInboxTags, List.length_map, hasRepeat_strings (nodup_eraseDups all),
      decide_eq_false hTwice, someDiffers_stored hStored, hTexts]
    rfl

/-! ## Texts and links -/

theorem text?_eq_some {value : Unknown} {text : JsString} :
    text? value = some text ↔ value = some (.string text) := by
  rw [← isText_iff, isText, decide_eq_true_iff]

theorem checkedText_eq_ok {accepts : JsString → Bool}
    {refused : WorkspaceError} {value : Unknown} {text : JsString} :
    checkedText accepts refused value = .ok text ↔
      value = some (.string text) ∧ accepts text = true := by
  rw [checkedText, ← text?_eq_some]
  cases text? value with
  | none => simp
  | some raw =>
      dsimp only
      split_ifs with hAccepts
      · rw [Except.ok.injEq, Option.some.injEq]
        constructor
        · rintro rfl
          exact ⟨rfl, hAccepts⟩
        · exact And.left
      · simp only [Option.some.injEq, false_iff, not_and]
        rintro rfl
        exact hAccepts

/-- What `parseLink` has read of a link it accepts. -/
theorem parseLink_eq_ok {runtime : TextRuntime} {refused : WorkspaceError}
    {item : JsonValue} {link : InboxLink} :
    parseLink runtime refused item = .ok link ↔
      ∃ url, linkUrl runtime item = some url ∧
        text? (member (some item) "title") = some link.title ∧
        url.protocol = js "https:" ∧ url.username = [] ∧ url.password = [] ∧
        isBlank link.title = false ∧ link.title.length ≤ 200 ∧
        url.href = link.url := by
  rw [parseLink]
  cases hUrl : linkUrl runtime item with
  | none => simp
  | some url =>
      cases hTitle : text? (member (some item) "title") with
      | none => simp
      | some title =>
          dsimp only
          split_ifs with hRefused
          · simp only [false_iff]
            rintro ⟨_, hEq, hText, hProtocol, hUser, hPassword, hBlank,
              hLength, -⟩
            cases hEq
            cases hText
            simp [hProtocol, hUser, hPassword, hBlank,
              Nat.not_lt.mpr hLength] at hRefused
          · simp only [Bool.or_eq_true, bne_iff_ne, ne_eq, Bool.not_eq_true',
              List.isEmpty_eq_false_iff, decide_eq_true_eq, not_or,
              Decidable.not_not, Bool.not_eq_true, Nat.not_lt] at hRefused
            obtain ⟨⟨⟨⟨hProtocol, hUser⟩, hPassword⟩, hBlank⟩, hLength⟩ :=
              hRefused
            rw [Except.ok.injEq]
            constructor
            · rintro rfl
              exact ⟨url, rfl, rfl, hProtocol, hUser, hPassword, hBlank,
                hLength, rfl⟩
            · rintro ⟨_, hEq, hText, -, -, -, -, -, hHref⟩
              cases hEq
              cases link
              cases hText
              cases hHref
              rfl

/-- A link as the desktop sends it. -/
theorem linkUrl_linkValue {runtime : TextRuntime} {link : InboxLink} :
    linkUrl runtime (linkValue link) =
      if link.url.length ≤ 2048 then runtime.parseUrl link.url else none := rfl

/-- The relay accepts a link of the desktop where the normalised URL is within
its bound. -/
theorem isOk_parseLink_linkValue {runtime : TextRuntime}
    (hLawful : Lawful runtime) {refused refused' : WorkspaceError}
    {item : JsonValue} {link : InboxLink}
    (h : parseLink runtime refused item = .ok link) :
    (parseLink runtime refused' (linkValue link)).isOk = true ↔
      link.url.length ≤ 2048 := by
  obtain ⟨url, hUrl, -, hProtocol, hUser, hPassword, hBlank, hLength, hHref⟩ :=
    parseLink_eq_ok.mp h
  have hParsed : ∃ text, runtime.parseUrl text = some url := by
    rw [linkUrl] at hUrl
    split at hUrl
    · split_ifs at hUrl
      exact ⟨_, hUrl⟩
    · cases hUrl
  obtain ⟨text, hText⟩ := hParsed
  have hAgain := hLawful.reparse text url hText
  rw [hHref] at hAgain
  constructor
  · intro hOk
    obtain ⟨_, hLink⟩ := isOk_iff.mp hOk
    obtain ⟨_, hFound, -⟩ := parseLink_eq_ok.mp hLink
    rw [linkUrl_linkValue] at hFound
    by_contra hLong
    rw [if_neg hLong] at hFound
    cases hFound
  · intro hShort
    have hFound : linkUrl runtime (linkValue link) = some url := by
      rw [linkUrl_linkValue, if_pos hShort, hAgain]
    exact isOk_iff.mpr ⟨link, parseLink_eq_ok.mpr ⟨url, hFound, rfl, hProtocol,
      hUser, hPassword, hBlank, hLength, hHref⟩⟩

/-! ## What the desktop has checked -/

theorem linkItems_eq_ok {refused : WorkspaceError} {value : JsonValue}
    {items : List JsonValue} :
    linkItems refused value = .ok items ↔ items.length ≤ 5 ∧
      (value.field? (js "links") = some (.array items) ∨
        (value.field? (js "links") = none ∧ items = [])) := by
  unfold linkItems
  split
  case h_1 hField =>
    rw [hField, Except.ok.injEq]
    constructor
    · rintro rfl
      exact ⟨Nat.zero_le _, .inr ⟨rfl, rfl⟩⟩
    · rintro ⟨-, hItems | ⟨-, rfl⟩⟩
      · cases hItems
      · rfl
  case h_2 found hField =>
    rw [hField]
    split_ifs with hMany
    · simp only [false_iff, not_and]
      rintro hFew (hItems | ⟨hItems, -⟩)
      · cases hItems
        exact absurd hFew (Nat.not_le.mpr hMany)
      · cases hItems
    · rw [Except.ok.injEq]
      constructor
      · rintro rfl
        exact ⟨Nat.not_lt.mp hMany, .inl rfl⟩
      · rintro ⟨-, hItems | ⟨hItems, -⟩⟩
        · cases hItems
          rfl
        · cases hItems
  case h_3 other hOther hField =>
    rw [hField]
    refine ⟨fun hError => absurd hError (by simp), ?_⟩
    rintro ⟨-, hItems | ⟨hItems, -⟩⟩
    · cases hItems
      exact absurd rfl (hOther items)
    · cases hItems

/-- What `parseNotify` has checked. -/
structure Checked (runtime : TextRuntime) (value : JsonValue)
    (items : List JsonValue) (notify : Notify) : Prop where
  key : value.field? (js "key") = some (.string notify.key)
  keyUnits : isNotifyKey notify.key = true
  title : value.field? (js "title") = some (.string notify.title)
  titleBlank : isBlank notify.title = false
  body : value.field? (js "body") = some (.string notify.body)
  bodyBlank : isBlank notify.body = false
  bodyBytes : byteLength notify.body ≤ 64 * 1024
  listed : linkItems (notifyError "notify accepts at most five links") value =
    .ok items
  links : List.Forall₂ (fun item link => parseLink runtime
    (notifyError "notify links need a title and an https URL") item =
      .ok link) items notify.links

theorem checked_of_parseNotify {runtime : TextRuntime} {payload : Unknown}
    {notify : Notify} (h : parseNotify runtime payload = .ok notify) :
    ∃ value items, payload = some value ∧
      Checked runtime value items notify := by
  obtain ⟨value, hValue, h⟩ := bind_eq_ok.mp h
  obtain ⟨_, -, h⟩ := bind_eq_ok.mp h
  obtain ⟨key, hKey, h⟩ := bind_eq_ok.mp h
  obtain ⟨title, hTitle, h⟩ := bind_eq_ok.mp h
  obtain ⟨body, hBody, h⟩ := bind_eq_ok.mp h
  obtain ⟨items, hItems, h⟩ := bind_eq_ok.mp h
  obtain ⟨links, hLinks, h⟩ := bind_eq_ok.mp h
  cases h
  obtain ⟨hKey, hKeyUnits⟩ := checkedText_eq_ok.mp hKey
  obtain ⟨hTitle, hTitleUnits⟩ := checkedText_eq_ok.mp hTitle
  obtain ⟨hBody, hBodyUnits⟩ := checkedText_eq_ok.mp hBody
  simp only [Bool.and_eq_true, Bool.not_eq_true', decide_eq_true_eq]
    at hTitleUnits hBodyUnits
  exact ⟨value, items, (plainObject_eq_ok.mp hValue).1, {
    key := hKey
    keyUnits := hKeyUnits
    title := hTitle
    titleBlank := hTitleUnits.1
    body := hBody
    bodyBlank := hBodyUnits.1
    bodyBytes := hBodyUnits.2
    listed := hItems
    links := mapM_eq_ok.mp hLinks }⟩

/-! ## The publication on the relay -/

theorem publicationOf_field {pod : Pod} {runId : JsString}
    {podTags : List JsString} {notify : Notify} :
    let value := publicationOf pod runId podTags notify
    value.field? (js "eventId") = some (.string (eventIdOf pod notify)) ∧
      value.field? (js "kind") = some (.string (js "message")) ∧
      value.field? (js "title") = some (.string notify.title) ∧
      value.field? (js "body") = some (.string notify.body) ∧
      value.field? (js "podId") = some (.string pod.id) ∧
      value.field? (js "podName") = some (.string (pod.name.take 200)) ∧
      value.field? (js "podTags") = (if podTags.isEmpty then none
        else some (.array (podTags.map .string))) ∧
      value.field? (js "runId") = some (.string runId) ∧
      value.field? (js "links") =
        some (.array (notify.links.map linkValue)) := by
  cases podTags with
  | nil => exact ⟨rfl, rfl, rfl, rfl, rfl, rfl, rfl, rfl, rfl⟩
  | cons tag tags => exact ⟨rfl, rfl, rfl, rfl, rfl, rfl, rfl, rfl, rfl⟩

theorem publicationOf_keys {pod : Pod} {runId : JsString}
    {podTags : List JsString} {notify : Notify} :
    hasOtherKeys ["eventId", "kind", "title", "body", "podId", "podName",
      "podTags", "runId", "links"] (publicationOf pod runId podTags notify) =
      false := by
  cases podTags with
  | nil => rfl
  | cons tag tags => rfl

/-! ## When the relay accepts -/

/-- The bounds of the relay that the desktop does not check: on the payload of
a notification and the name of its Pod. -/
structure Fits (runtime : TextRuntime) (payload : Unknown)
    (podName : JsString) : Prop where
  title : ∀ title, member payload "title" = some (.string title) →
    byteLength title ≤ 300
  podName : byteLength podName ≤ 200
  links : ∀ items, member payload "links" = some (.array items) →
    ∀ item ∈ items, ∀ url, linkUrl runtime item = some url →
      url.href.length ≤ 2048

theorem isWordUnit_of_lowerHex {u : CodeUnit} (h : isLowerHex u = true) :
    isWordUnit u = true := by
  simp only [isLowerHex, isWordUnit, Bool.or_eq_true, Bool.and_eq_true,
    decide_eq_true_eq] at h ⊢
  rcases h with hDigit | ⟨hLow, hHigh⟩
  · exact .inl (.inl (.inl hDigit))
  · exact .inl (.inr ⟨hLow, UInt16.le_trans hHigh (by decide)⟩)

/-- Ids and keys make event keys. -/
theorem isEventKey_eventIdOf {pod : Pod} {notify : Notify}
    (hPod : isLooseId pod.id = true) (hKey : isNotifyKey notify.key = true) :
    isEventKey (eventIdOf pod notify) = true := by
  simp only [isLooseId, isNotifyKey, Bool.and_eq_true, beq_iff_eq,
    List.all_eq_true, decide_eq_true_eq, Bool.or_eq_true] at hPod hKey
  obtain ⟨hPodLength, hPodUnits⟩ := hPod
  obtain ⟨⟨hLeast, hMost⟩, hKeyUnits⟩ := hKey
  have hColon : (js ":").length = 1 := rfl
  simp only [isEventKey, eventIdOf, Bool.and_eq_true, decide_eq_true_eq,
    List.length_append, List.all_eq_true, hColon]
  refine ⟨⟨by omega, by omega⟩, fun u hu => ?_⟩
  simp only [Bool.or_eq_true, beq_iff_eq]
  rcases List.mem_append.mp hu with hFront | hKeyUnit
  · rcases List.mem_append.mp hFront with hId | hMark
    · rcases hPodUnits u hId with hHex | hDash
      · exact .inl (.inl (.inl (isWordUnit_of_lowerHex hHex)))
      · exact .inr hDash
    · exact .inl (.inr (List.mem_singleton.mp hMark))
  · rcases hKeyUnits u hKeyUnit with (hWord | hDot) | hDash
    · exact .inl (.inl (.inl hWord))
    · exact .inl (.inl (.inr hDot))
    · exact .inr hDash

theorem relayText_string {value : JsonValue} {field : String} {maximum : Nat}
    {raw : JsString} (hField : value.field? (js field) = some (.string raw))
    (hBlank : isBlank raw = false) :
    (relayText value field maximum).isOk = true ↔ byteLength raw ≤ maximum := by
  have hText : text? (value.field? (js field)) = some raw :=
    text?_eq_some.mpr hField
  rw [relayText, hText]
  dsimp only
  rw [hBlank, if_neg Bool.false_ne_true]
  split_ifs with hLong
  · simp [hLong]
  · simp [Nat.not_lt.mp hLong]

/-- The relay's answer to a publication of the desktop hangs on the texts and
links alone. -/
theorem isOk_parsePublication {runtime : TextRuntime} {pod : Pod}
    {runId : JsString} {podTags : List JsString} {notify : Notify}
    (hPod : isLooseId pod.id = true) (hRun : isLooseId runId = true)
    (hKey : isNotifyKey notify.key = true) (hLinks : notify.links.length ≤ 5)
    (hTags : parseInboxTags runtime (some (.array (podTags.map .string))) =
      .ok podTags)
    (hTitle : isBlank notify.title = false)
    (hBody : isBlank notify.body = false)
    (hName : isBlank (pod.name.take 200) = false) :
    (parsePublication runtime
      (some (publicationOf pod runId podTags notify))).isOk = true ↔
      (∀ link ∈ notify.links, (parseLink runtime
        (protocolError (js "invalid_inbox_link")) (linkValue link)).isOk = true) ∧
      byteLength notify.title ≤ 300 ∧ byteLength notify.body ≤ 64 * 1024 ∧
      byteLength (pod.name.take 200) ≤ 200 := by
  obtain ⟨hEvent, hKind, hTitleField, hBodyField, hPodField, hNameField,
    hTagsField, hRunField, hLinksField⟩ :=
    @publicationOf_field pod runId podTags notify
  have hKeys := @publicationOf_keys pod runId podTags notify
  have hObject : relayObject (some (publicationOf pod runId podTags notify)) =
      .ok (publicationOf pod runId podTags notify) := rfl
  generalize publicationOf pod runId podTags notify = value at *
  have hEventKey : checkedText isEventKey invalidItem
      (value.field? (js "eventId")) = .ok (eventIdOf pod notify) :=
    checkedText_eq_ok.mpr ⟨hEvent, isEventKey_eventIdOf hPod hKey⟩
  have hMessage : isText (value.field? (js "kind")) (js "message") = true :=
    isText_iff.mpr hKind
  have hItems : linkItems invalidItem value =
      .ok (notify.links.map linkValue) :=
    linkItems_eq_ok.mpr ⟨by rwa [List.length_map], .inl hLinksField⟩
  have hPodId : relayId value "podId" = .ok (some pod.id) := by
    rw [relayId, hPodField]
    exact if_pos hPod
  have hRunId : relayId value "runId" = .ok (some runId) := by
    rw [relayId, hRunField]
    exact if_pos hRun
  have hPodTags : ∃ tags, relayTags runtime value = .ok tags := by
    rw [relayTags, hTagsField]
    cases podTags with
    | nil => exact ⟨none, rfl⟩
    | cons tag tags =>
        refine ⟨some (tag :: tags), ?_⟩
        rw [List.isEmpty_cons, if_neg Bool.false_ne_true]
        dsimp only
        rw [hTags]
  obtain ⟨tags, hPodTags⟩ := hPodTags
  have hOptional : relayOptionalText value "podName" 200 =
      relayText value "podName" 200 >>= fun raw => pure (some raw) := by
    rw [relayOptionalText, hNameField]
    rfl
  rw [parsePublication, hObject, ok_bind, hKeys, throwIf,
    if_neg Bool.false_ne_true, ok_bind, hEventKey, ok_bind, hMessage, throwIf,
    Bool.not_true, if_neg Bool.false_ne_true, ok_bind, hItems, ok_bind]
  refine (isOk_bind_const fun links => ?_).trans
    (and_congr_left' ((isOk_mapM _ _).trans List.forall_mem_map))
  rw [hPodId, ok_bind, hRunId, ok_bind, hPodTags, ok_bind]
  refine (isOk_bind_const fun title => ?_).trans
    (and_congr_left' (relayText_string hTitleField hTitle))
  refine (isOk_bind_const fun body => ?_).trans
    (and_congr_left' (relayText_string hBodyField hBody))
  rw [isOk_bind_pure, hOptional, isOk_bind_pure]
  exact relayText_string hNameField hName

/-- The normalised URLs of the accepted links are those of the payload. -/
theorem forall_links {runtime : TextRuntime} {refused : WorkspaceError}
    {items : List JsonValue} {links : List InboxLink}
    (h : List.Forall₂ (fun item link =>
      parseLink runtime refused item = .ok link) items links) :
    (∀ link ∈ links, link.url.length ≤ 2048) ↔
      ∀ item ∈ items, ∀ url, linkUrl runtime item = some url →
        url.href.length ≤ 2048 := by
  induction h with
  | nil => simp
  | @cons item link items links hFirst hRest ih =>
      obtain ⟨url, hUrl, -, -, -, -, -, -, hHref⟩ := parseLink_eq_ok.mp hFirst
      rw [List.forall_mem_cons, List.forall_mem_cons, ih, hUrl, ← hHref]
      simp

theorem fits_iff {runtime : TextRuntime} {value : JsonValue}
    {items : List JsonValue} {notify : Notify} {podName : JsString}
    (h : Checked runtime value items notify) :
    Fits runtime (some value) podName ↔
      (∀ link ∈ notify.links, link.url.length ≤ 2048) ∧
        byteLength notify.title ≤ 300 ∧ byteLength podName ≤ 200 := by
  rw [forall_links h.links]
  obtain ⟨-, hListed⟩ := linkItems_eq_ok.mp h.listed
  constructor
  · intro hFits
    refine ⟨?_, hFits.title _ h.title, hFits.podName⟩
    rcases hListed with hItems | ⟨-, rfl⟩
    · exact hFits.links items hItems
    · intro item hItem
      cases hItem
  · rintro ⟨hLinks, hTitle, hName⟩
    constructor
    case title =>
      intro title hField
      rw [show member (some value) "title" = some (.string notify.title) from
        h.title] at hField
      cases hField
      exact hTitle
    case podName => exact hName
    case links =>
      intro items' hField
      change value.field? (js "links") = _ at hField
      rcases hListed with hItems | ⟨hNone, -⟩
      · rw [hItems] at hField
        cases hField
        exact hLinks
      · rw [hNone] at hField
        cases hField

/-- A row that `queue` writes holds the publication of its notification. -/
theorem exists_queued {sha256 : List UInt8 → JsString} {now : Nat → Int}
    {rows rows' : List QueuedRow} {pod : Pod} {runId : JsString}
    {podTags : List JsString} {notify : Notify} {receipt : QueueReceipt}
    (h : queue sha256 now rows pod runId podTags notify =
      .ok (receipt, rows')) (hQueued : receipt.queued = true) :
    ∃ row ∈ rows', row.eventId = receipt.eventId ∧
      row.publication = publicationOf pod runId podTags notify := by
  simp only [queue] at h
  split at h
  · split_ifs at h
    cases h
    cases hQueued
  · cases h
    exact ⟨_, List.mem_append_right _ (List.mem_singleton_self _), rfl, rfl⟩

/-- The publication that `queue` writes for an accepted notification is one
that the relay accepts, exactly where the bounds fit. -/
theorem publication_accepted_iff {runtime : TextRuntime}
    (hLawful : Lawful runtime) {payload : Unknown} {notify : Notify}
    (hNotify : parseNotify runtime payload = .ok notify)
    {input : Unknown} {pod : Pod} (hName : podNameOf input = .ok pod.name)
    (hPod : isUuid pod.id = true) {runId : JsString}
    (hRun : isUuid runId = true) {stored : Unknown} {podTags : List JsString}
    (hTags : normalizeTags runtime stored = .ok podTags)
    {sha256 : List UInt8 → JsString} {now : Nat → Int}
    {rows rows' : List QueuedRow} {receipt : QueueReceipt}
    (hQueue : queue sha256 now rows pod runId podTags notify =
      .ok (receipt, rows')) (hQueued : receipt.queued = true) :
    ∃ row ∈ rows', row.eventId = receipt.eventId ∧
      ((parsePublication runtime (some row.publication)).isOk = true ↔
        Fits runtime payload pod.name) := by
  obtain ⟨value, items, rfl, hChecked⟩ := checked_of_parseNotify hNotify
  obtain ⟨row, hRow, hEvent, hPublication⟩ := exists_queued hQueue hQueued
  refine ⟨row, hRow, hEvent, ?_⟩
  obtain ⟨-, hNameUnits⟩ := checkedText_eq_ok.mp hName
  simp only [Bool.and_eq_true, Bool.not_eq_true', decide_eq_true_eq]
    at hNameUnits
  obtain ⟨⟨hNameBlank, hNameLength⟩, -⟩ := hNameUnits
  have hTake : pod.name.take 200 = pod.name :=
    List.take_of_length_le (by omega)
  have hLinksLength : notify.links.length ≤ 5 := by
    rw [← hChecked.links.length_eq]
    exact (linkItems_eq_ok.mp hChecked.listed).1
  have hLinks : (∀ link ∈ notify.links, (parseLink runtime
      (protocolError (js "invalid_inbox_link")) (linkValue link)).isOk = true) ↔
      ∀ link ∈ notify.links, link.url.length ≤ 2048 := by
    refine forall₂_congr fun link hLink => ?_
    obtain ⟨item, -, hItem⟩ :=
      exists_of_mem_mapM (mapM_eq_ok.mpr hChecked.links) hLink
    exact isOk_parseLink_linkValue hLawful hItem
  rw [hPublication, fits_iff hChecked, isOk_parsePublication
    (isLooseId_of_isUuid hPod) (isLooseId_of_isUuid hRun) hChecked.keyUnits
    hLinksLength (parseInboxTags_stored hLawful hTags) hChecked.titleBlank
    hChecked.bodyBlank (by rwa [hTake]), hLinks, hTake]
  have hBody := hChecked.bodyBytes
  constructor
  · rintro ⟨hUrls, hTitle, -, hBytes⟩
    exact ⟨hUrls, hTitle, hBytes⟩
  · rintro ⟨hUrls, hTitle, hBytes⟩
    exact ⟨hUrls, hTitle, hBody, hBytes⟩

/-! ## Sample -/

/-- A runtime whose URL parser knows one URL, in two spellings, and whose
letters are the lower-case ones of ASCII. -/
def sampleRuntime : TextRuntime where
  parseUrl text :=
    if text = js "https://example.com" ∨ text = js "https://example.com/" then
      some {
        protocol := js "https:", username := [], password := []
        href := js "https://example.com/" }
    else none
  lower := id
  isLetter c := decide (97 ≤ c ∧ c ≤ 122)

theorem lawful_sampleRuntime : Lawful sampleRuntime := by
  constructor
  case reparse =>
    intro text url h
    simp only [sampleRuntime] at h ⊢
    split_ifs at h
    cases h
    rfl
  case lowered =>
    intro text
    rfl
  case letters =>
    intro u hSpace
    have hNone : ∀ n < 123, 97 ≤ n → isTrimmed n.toUInt16 = false := by
      decide
    have hUnit : u.toNat.toUInt16 = u := UInt16.ofNat_toNat
    refine decide_eq_false ?_
    rintro ⟨hLeast, hMost⟩
    have hLetter := hNone u.toNat (Nat.lt_succ_of_le hMost) hLeast
    rw [hUnit, hSpace] at hLetter
    cases hLetter

/-- The payload of a notification with this title and one link. -/
def samplePayload (title : JsString) : Unknown :=
  some (.object [(js "key", .string (js "report")),
    (js "title", .string title), (js "body", .string (js "Done.")),
    (js "links", .array [.object [(js "title", .string (js "Report")),
      (js "url", .string (js "https://example.com"))]])])

def samplePod : Pod where
  id := js "01234567-89ab-cdef-0123-456789abcdef"
  name := js "Reports"

def sampleTags : List JsString := [js "daily", js "work"]

def sampleNotify : Notify where
  key := js "report"
  title := js "Weekly report"
  body := js "Done."
  links := [{ title := js "Report", url := js "https://example.com/" }]

/-- The outbox after the sample notification. -/
def sampleRows : List QueuedRow :=
  [{ eventId := eventIdOf samplePod sampleNotify
     podId := samplePod.id
     runId := samplePod.id
     digest := []
     publication :=
       publicationOf samplePod samplePod.id sampleTags sampleNotify
     state := .pending
     nextAt := 0
     createdAt := 0
     updatedAt := 0 }]

theorem publication_accepted_sample :
    ∃ row ∈ sampleRows, row.eventId = eventIdOf samplePod sampleNotify ∧
      ((parsePublication sampleRuntime (some row.publication)).isOk = true ↔
        Fits sampleRuntime (samplePayload (js "Weekly report"))
          samplePod.name) :=
  publication_accepted_iff lawful_sampleRuntime
    (show parseNotify sampleRuntime (samplePayload (js "Weekly report")) =
      .ok sampleNotify from rfl)
    (show podNameOf (some (.string (js "Reports"))) = .ok samplePod.name from
      rfl)
    (by decide) (by decide)
    (show normalizeTags sampleRuntime
      (some (.array (sampleTags.map .string))) = .ok sampleTags from rfl)
    (show queue (fun _ => []) (fun _ => 0) [] samplePod samplePod.id sampleTags
        sampleNotify =
      .ok (⟨eventIdOf samplePod sampleNotify, true⟩, sampleRows) from rfl)
    rfl

/-- What happens to a notification with this title: whether the relay accepts
each publication that is queued for it. -/
def delivered (title : JsString) : Option (List Bool) :=
  match parseNotify sampleRuntime (samplePayload title) with
  | .ok notify =>
      match queue (fun _ => []) (fun _ => 0) [] samplePod samplePod.id sampleTags
          notify with
      | .ok (_, rows) => some (rows.map fun row =>
          (parsePublication sampleRuntime (some row.publication)).isOk)
      | .error _ => none
  | .error _ => none

/-- A title of 300 letters of two bytes each is accepted and queued, and the
relay refuses its publication. -/
theorem publication_refused :
    (podNameOf (some (.string samplePod.name))).isOk = true ∧
      delivered (List.replicate 300 0xE4) = some [false] := by
  decide +kernel

end OpenApe.Ports.InboxAcceptance
