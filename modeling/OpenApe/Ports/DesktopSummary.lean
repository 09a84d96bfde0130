import OpenApe.Ports.RequestSummary

/-!
# Summaries written by the desktop

The desktop states what a grant request is about: a script's own summary
where it gave one, else a title from the data the request names, and the
name of the Pod as origin.  Data is not checked beforehand, so `summaryLine`
makes one line of it that fits: what the IdP would refuse becomes a space,
and a longer line is cut between code points.

The writer measures in code units and the two readers in code points; what
fits the writer's limit fits theirs, and neither the spaces nor the cut make
a character that was not there.
-/

namespace OpenApe.Ports.DesktopSummary

open Verified.JsText Verified.Json Verified.Unicode Verified.CodePoints
open Verified.Fallible
open CentralValues (Unknown)
open RequestSummary

/-! ## The desktop's reader -/

/-- The parts of a URL that the check of a link reads. -/
structure UrlParts where
  protocol : JsString
  username : JsString
  password : JsString

/-- `URL.parse`, for which null is none. -/
abbrev UrlParser := JsString → Option UrlParts

def isWebLink (parse : UrlParser) (link : JsString) : Bool :=
  match parse link with
  | none => false
  | some url =>
      (url.protocol == js "http:" || url.protocol == js "https:") &&
        url.username.isEmpty && url.password.isEmpty

def parseSummary (parse : UrlParser) (value : Unknown) :
    Except SummaryError GrantSummary := do
  let value := match value with
    | none | some .null => some (.object [])
    | value => value
  match ← parseGrantSummary value with
  | none => throw (js "Cannot read properties of undefined (reading 'link')")
  | some summary =>
      if summary.link.any (!isWebLink parse ·) then
        throw (js "A summary link is an http or https URL without credentials")
      return summary

/-- What a script may claim. -/
structure ScriptSummary where
  title : Option JsString := none
  description : Option JsString := none
  link : Option JsString := none

/-- `{ ...object, [key]: value }` -/
def withMember (key : JsString) (value : JsonValue)
    (members : List (JsString × JsonValue)) : List (JsString × JsonValue) :=
  if key ∈ members.map Prod.fst then
    members.map fun member => if member.1 = key then (key, value) else member
  else members ++ [(key, value)]

def parseScriptSummary (parse : UrlParser) (value : Unknown) :
    Except SummaryError ScriptSummary :=
  match value with
  | some (.object members) => do
      if (members.map Prod.fst).any
          (· ∉ [js "title", js "description", js "link"]) then
        throw (js "A summary names only title, description and link")
      let claimed := (JsonValue.object members).field? (js "title")
      let title := match claimed with
        | none | some .null => .string (js "untitled")
        | some title => title
      let checked ← parseSummary parse
        (some (.object (withMember (js "title") title members)))
      return ⟨claimed.map fun _ => checked.title, checked.description,
        checked.link⟩
  | _ => .error (js "A summary names only title, description and link")

/-! ## The writer -/

/-- `[\p{Cc}\p{Cf}\p{Cs}\s]` -/
def isReplaced (c : Nat) : Bool :=
  isControl c || isFormat c || isSurrogate c ||
    (decide (c < 0x10000) && isTrimmed c.toUInt16)

/-- `replace(/[…]+/gu, ' ')`: every run of matching characters becomes one
space. -/
def collapse (p : Nat → Bool) : Bool → List Nat → List Nat
  | _, [] => []
  | inRun, c :: points =>
      if p c then
        if inRun then collapse p true points
        else 0x20 :: collapse p true points
      else c :: collapse p false points

/-- The loop that shortens a line. -/
def shorten (limit : Nat) : List Nat → JsString → JsString
  | [], shortened => shortened
  | c :: points, shortened =>
      if shortened.length + (encodePoint c).length > limit - 1 then shortened
      else shorten limit points (shortened ++ encodePoint c)

def summaryLine (value : JsString) (limit : Nat) (fallback : JsString) :
    JsString :=
  let text := trim (encodePoints (collapse isReplaced false (codePoints value)))
  if text = [] then fallback
  else if text.length ≤ limit then text
  else trimEnd (shorten limit (codePoints text) []) ++ js "…"

def grantSummary (dataTitle : JsString) (origin : Option JsString)
    (script : ScriptSummary) : GrantSummary where
  title := script.title.getD (summaryLine dataTitle 120 (js "–"))
  description := script.description
  origin := origin.map fun origin => summaryLine origin 120 (js "Pod")
  link := script.link

inductive RunReason
  | manual
  | schedule
  | event

def RunReason.label : RunReason → JsString
  | .manual => js "Manual start"
  | .schedule => js "Scheduled start"
  | .event => js "Event-triggered start"

structure RunContext where
  name : JsString
  reason : RunReason
  description : Option JsString

def contextLabel : JsString := js "Pod context:\n"

def contextFooter (reason : RunReason) : JsString :=
  js "\n\n" ++ reason.label ++
    js ". Tool and HTTP calls require their own permissions."

def contextDescription (context : RunContext) : JsString :=
  match context.description with
  | some description =>
      if trim description = [] then
        js "Run the selected saved script.\n" ++ context.reason.label ++ js "."
      else
        contextLabel ++
          summaryLine description (2000 - contextLabel.length -
            (contextFooter context.reason).length) (js "–") ++
          contextFooter context.reason
  | none =>
      js "Run the selected saved script.\n" ++ context.reason.label ++ js "."

def savedScriptSummary (parse : UrlParser) (context : RunContext) :
    Except SummaryError GrantSummary :=
  parseSummary parse (some (grantSummary
    (js "Run saved script: " ++ context.name) (some context.name)
    ⟨none, some (contextDescription context), none⟩).value)

/-! ## One line that fits -/

/-- Text that is displayed as it is sent: no refused character, and no
surrogate that could make one. -/
def Plain (text : JsString) : Prop :=
  ∀ c ∈ codePoints text, isHidden c = false ∧ isSurrogate c = false

instance (text : JsString) : Decidable (Plain text) :=
  inferInstanceAs (Decidable (∀ c ∈ codePoints text, _))

/-- What `summaryLine` makes of data. -/
structure IsLine (limit : Nat) (text : JsString) : Prop where
  visible : trim text ≠ []
  short : text.length ≤ limit
  plain : Plain text

theorem mem_collapse {p : Nat → Bool} {points : List Nat} {inRun : Bool}
    {c : Nat} (h : c ∈ collapse p inRun points) :
    c = 0x20 ∨ c ∈ points ∧ p c = false := by
  induction points generalizing inRun with
  | nil => cases h
  | cons d points ih =>
      have hRest : ∀ {inRun}, c ∈ collapse p inRun points →
          c = 0x20 ∨ c ∈ d :: points ∧ p c = false := fun hMem =>
        (ih hMem).imp_right fun hc => ⟨List.mem_cons_of_mem d hc.1, hc.2⟩
      rw [collapse] at h
      split at h
      · split at h
        · exact hRest h
        · rcases List.mem_cons.mp h with hSpace | hMem
          · exact Or.inl hSpace
          · exact hRest hMem
      · rename_i hKept
        rcases List.mem_cons.mp h with hEq | hMem
        · rw [hEq]
          exact Or.inr ⟨List.mem_cons_self, Bool.eq_false_iff.mpr hKept⟩
        · exact hRest hMem

/-- The line separators are white space. -/
theorem isHidden_of_not_replaced {c : Nat} (h : isReplaced c = false) :
    isHidden c = false ∧ isSurrogate c = false := by
  simp only [isReplaced, Bool.or_eq_false_iff] at h
  obtain ⟨⟨⟨hControl, hFormat⟩, hSurrogate⟩, hBlank⟩ := h
  have hLine : c ≠ 0x2028 := by
    rintro rfl
    exact absurd hBlank (by decide)
  have hParagraph : c ≠ 0x2029 := by
    rintro rfl
    exact absurd hBlank (by decide)
  simp [isHidden, hControl, hFormat, hSurrogate, hLine, hParagraph]

/-- The characters that are kept read back after they are joined. -/
theorem codePoints_collapse (value : JsString) :
    codePoints (encodePoints (collapse isReplaced false (codePoints value))) =
      collapse isReplaced false (codePoints value) := by
  apply codePoints_encodePoints
  apply Separate.of_scalars
  intro c hc
  rcases mem_collapse hc with rfl | ⟨hMem, hKept⟩
  · decide
  · exact ⟨(separate_codePoints value).1 c hMem,
      (isHidden_of_not_replaced hKept).2⟩

theorem plain_collapse (value : JsString) :
    Plain (trim (encodePoints
      (collapse isReplaced false (codePoints value)))) := by
  intro c hc
  have hMem := (codePoints_trim _).subset hc
  rw [codePoints_collapse] at hMem
  rcases mem_collapse hMem with rfl | ⟨-, hKept⟩
  · decide
  · exact isHidden_of_not_replaced hKept

/-- The loop keeps some first code points, as far as they fit. -/
theorem shorten_eq (limit : Nat) (points : List Nat) (shortened : JsString)
    (hFits : shortened.length ≤ limit - 1) :
    ∃ kept, kept <+: points ∧
      shorten limit points shortened = shortened ++ encodePoints kept ∧
      (shorten limit points shortened).length ≤ limit - 1 := by
  induction points generalizing shortened with
  | nil =>
      exact ⟨[], List.nil_prefix, (List.append_nil _).symm, hFits⟩
  | cons c points ih =>
      rw [shorten]
      split
      · exact ⟨[], List.nil_prefix, (List.append_nil _).symm, hFits⟩
      · rename_i hRoom
        obtain ⟨kept, hPrefix, hText, hLength⟩ :=
          ih (shortened ++ encodePoint c) (by rw [List.length_append]; omega)
        refine ⟨c :: kept, List.cons_prefix_cons.mpr ⟨rfl, hPrefix⟩, ?_,
          hLength⟩
        rw [hText, encodePoints_cons, List.append_assoc]

/-- A shortened text ends with an ellipsis. -/
theorem isLine_ellipsis {limit : Nat} (hLimit : 0 < limit) {text : JsString}
    (hShort : text.length ≤ limit - 1) (hPlain : Plain text) :
    IsLine limit (trimEnd text ++ js "…") := by
  have hPoints : codePoints (trimEnd text ++ js "…") =
      codePoints (trimEnd text) ++ [0x2026] := by
    rw [codePoints_append (apart_of_head fun u hu => ?_)]
    · rfl
    · rw [← Option.some.inj hu]
      decide
  obtain ⟨after, hSplit, -⟩ := trimEnd_split text
  refine ⟨trim_ne_nil ⟨0x2026, List.mem_append_right _ List.mem_cons_self,
    by decide⟩, ?_, fun c hc => ?_⟩
  · have hLength := congrArg List.length hSplit
    rw [List.length_append] at hLength
    rw [List.length_append, show (js "…").length = 1 from rfl]
    omega
  · rw [hPoints, List.mem_append, List.mem_singleton] at hc
    rcases hc with hKept | rfl
    · exact hPlain c ((codePoints_trimEnd text).subset hKept)
    · decide

/-- Whatever the data, a summary line is visible, short and plain. -/
theorem isLine_summaryLine (value : JsString) {limit : Nat}
    (hLimit : 0 < limit) {fallback : JsString}
    (hFallback : IsLine limit fallback) :
    IsLine limit (summaryLine value limit fallback) := by
  have hPlain := plain_collapse value
  unfold summaryLine
  dsimp only
  generalize hText : trim (encodePoints
    (collapse isReplaced false (codePoints value))) = text at *
  by_cases hEmpty : text = []
  · rw [if_pos hEmpty]
    exact hFallback
  rw [if_neg hEmpty]
  by_cases hShort : text.length ≤ limit
  · rw [if_pos hShort]
    refine ⟨?_, hShort, hPlain⟩
    rcases trim_cases (encodePoints
      (collapse isReplaced false (codePoints value))) with hNil | hVisible
    · exact absurd (hText.symm.trans hNil) hEmpty
    · obtain ⟨u, rest, hu, hHead⟩ := hVisible
      rw [hText] at hHead
      exact trim_ne_nil ⟨u, by rw [hHead]; exact List.mem_cons_self, hu⟩
  · rw [if_neg hShort]
    obtain ⟨kept, hPrefix, hKept, hLength⟩ :=
      shorten_eq limit (codePoints text) [] (Nat.zero_le _)
    refine isLine_ellipsis hLimit hLength fun c hc => ?_
    rw [hKept, List.nil_append, codePoints_infix hPrefix.isInfix] at hc
    exact hPlain c (hPrefix.subset hc)

/-! ## Accepted summaries -/

/-- A line fits any field of at least its length. -/
theorem IsLine.fits {limit : Nat} {text : JsString} (h : IsLine limit text)
    {field : SummaryField} (hField : field ≠ .description)
    (hLimit : limit ≤ field.limit) : Fits field text := by
  refine ⟨?_, ?_⟩
  · have hPoints := length_codePoints_le text
    have hShort := h.short
    rw [codePointLength]
    omega
  · rw [beq_eq_false_iff_ne.mpr hField, hasHiddenCharacter,
      if_neg Bool.false_ne_true, List.any_eq_false]
    intro c hc
    rw [(h.plain c hc).1]
    exact Bool.false_ne_true

theorem Plain.append {a b : JsString} (ha : Plain a) (hb : Plain b)
    (h : Apart a b) : Plain (a ++ b) := by
  intro c hc
  rw [codePoints_append h, List.mem_append] at hc
  exact hc.elim (ha c) (hb c)

/-- A line holds no line feed. -/
theorem IsLine.filter_eq {limit : Nat} {text : JsString}
    (h : IsLine limit text) : text.filter (· != unit '\n') = text := by
  rw [List.filter_eq_self]
  intro u hu
  by_contra hFeed
  have hEq : u = unit '\n' := by simpa using hFeed
  obtain ⟨before, after, hText⟩ := List.append_of_mem hu
  have hHidden := (h.plain (unit '\n').toNat (by
    rw [hText, hEq, codePoints_middle before after (by decide)]
    exact List.mem_append_right _ List.mem_cons_self)).1
  exact absurd hHidden (by decide)

theorem contextFooter_plain (reason : RunReason) :
    Plain ((contextFooter reason).filter (· != unit '\n')) ∧
      (contextFooter reason).length ≤ 80 ∧
      ((contextFooter reason).filter (· != unit '\n')).head?.any
        isLowSurrogate = false := by
  cases reason <;> decide

theorem contextLabel_plain :
    Plain (contextLabel.filter (· != unit '\n')) ∧ contextLabel.length = 13 ∧
      (contextLabel.filter (· != unit '\n')).getLast?.any
        isHighSurrogate = false := by decide

theorem fits_plainDescription (reason : RunReason) :
    Fits .description
      (js "Run the selected saved script.\n" ++ reason.label ++ js ".") := by
  cases reason <;> exact ⟨by decide, by decide⟩

/-- Text whose lines are plain fits the description, if it is short. -/
theorem fits_of_plain {text : JsString} (hShort : text.length ≤ 2000)
    (hPlain : Plain (text.filter (· != unit '\n'))) :
    Fits .description text := by
  refine ⟨(length_codePoints_le text).trans hShort, ?_⟩
  rw [hasHiddenCharacter, if_pos (by decide), List.any_eq_false]
  intro c hc
  rw [(hPlain c hc).1]
  exact Bool.false_ne_true

theorem isLine_dash {limit : Nat} (h : 0 < limit) :
    IsLine limit (js "–") :=
  ⟨by decide, h, by decide⟩

theorem isLine_pod : IsLine 120 (js "Pod") :=
  ⟨by decide, by decide, by decide⟩

/-- The description of a saved script fits. -/
theorem fits_contextDescription (context : RunContext) :
    Fits .description (contextDescription context) := by
  obtain ⟨hFooter, hFooterLength, hFooterHead⟩ :=
    contextFooter_plain context.reason
  obtain ⟨hLabel, hLabelLength, hLabelLast⟩ := contextLabel_plain
  unfold contextDescription
  split
  · rename_i description _
    split
    · exact fits_plainDescription context.reason
    · have hRoom : 0 < 2000 - contextLabel.length -
          (contextFooter context.reason).length := by omega
      have hLine := isLine_summaryLine description hRoom (isLine_dash hRoom)
      refine fits_of_plain ?_ ?_
      · have hShort := hLine.short
        rw [List.length_append, List.length_append]
        omega
      · rw [List.filter_append, List.filter_append, hLine.filter_eq]
        refine (hLabel.append hLine.plain ?_).append hFooter ?_
        · refine apart_of_last fun u hu => ?_
          rw [hu] at hLabelLast
          exact hLabelLast
        · refine apart_of_head fun u hu => ?_
          rw [hu] at hFooterHead
          exact hFooterHead
  · exact fits_plainDescription context.reason

/-! ## The desktop's reader accepts what the IdP's does -/

/-- The links of a summary, if any, are web links without credentials. -/
def LinkAccepted (parse : UrlParser) (link : Option JsString) : Prop :=
  ∀ text, link = some text → isWebLink parse text = true

theorem parseSummary_object {parse : UrlParser}
    {members : List (JsString × JsonValue)} {summary : GrantSummary} :
    parseSummary parse (some (.object members)) = .ok summary ↔
      parseGrantSummary (some (.object members)) = .ok (some summary) ∧
        LinkAccepted parse summary.link := by
  have hLink : ∀ link : Option JsString,
      link.any (!isWebLink parse ·) = false ↔ LinkAccepted parse link := by
    intro link
    cases link with
    | none => exact ⟨fun _ _ h => (by cases h), fun _ => rfl⟩
    | some text =>
        rw [Option.any_some, Bool.not_eq_false']
        exact ⟨fun h t ht => Option.some.inj ht ▸ h, fun h => h text rfl⟩
  unfold parseSummary
  dsimp only
  rw [bind_eq_ok, ← hLink]
  constructor
  · rintro ⟨result, hParse, h⟩
    cases result with
    | none => cases h
    | some found =>
        dsimp only at h
        by_cases hBad : found.link.any (!isWebLink parse ·) = true
        · rw [if_pos hBad] at h
          cases h
        · rw [if_neg hBad] at h
          cases h
          exact ⟨hParse, Bool.eq_false_iff.mpr hBad⟩
  · rintro ⟨hParse, hGood⟩
    refine ⟨some summary, hParse, ?_⟩
    dsimp only
    rw [if_neg (by rw [hGood]; exact Bool.false_ne_true)]
    rfl

/-- Both readers accept a summary, and return it unchanged. -/
structure Accepted (parse : UrlParser) (summary : GrantSummary) : Prop where
  desktop : parseSummary parse (some summary.value) = .ok summary
  idp : parseGrantSummary (some summary.value) = .ok (some summary)

theorem accepted_of_valid {parse : UrlParser} {summary : GrantSummary}
    (h : Valid summary) (hLink : LinkAccepted parse summary.link) :
    Accepted parse summary := by
  have hParse := parseGrantSummary_value h
  refine ⟨?_, hParse⟩
  obtain ⟨members, hValue, -⟩ := keys_value summary
  rw [hValue] at hParse ⊢
  exact parseSummary_object.mpr ⟨hParse, hLink⟩

/-- What a script's summary was checked for. -/
structure ScriptAccepted (parse : UrlParser) (script : ScriptSummary) :
    Prop where
  title : ∀ text, script.title = some text → trim text ≠ [] ∧ Fits .title text
  description : ∀ text, script.description = some text →
    Fits .description text
  link : ∀ text, script.link = some text → Fits .link text
  web : LinkAccepted parse script.link

theorem scriptAccepted_of_parse {parse : UrlParser} {value : Unknown}
    {script : ScriptSummary}
    (h : parseScriptSummary parse value = .ok script) :
    ScriptAccepted parse script := by
  unfold parseScriptSummary at h
  split at h
  · rename_i members
    dsimp only at h
    split_ifs at h
    · cases h
    · obtain ⟨checked, hCheck, hScript⟩ := bind_eq_ok.mp h
      obtain ⟨hParse, hLink⟩ := parseSummary_object.mp hCheck
      have hValid := valid_of_parseGrantSummary hParse
      cases hScript
      refine ⟨fun text hText => ?_, hValid.fits .description,
        hValid.fits .link, hLink⟩
      obtain ⟨_, -, hTitle⟩ := Option.map_eq_some_iff.mp hText
      rw [← hTitle]
      exact ⟨hValid.title, hValid.fits .title _ rfl⟩
  · cases h

/-- The fields of a request's summary are lines or were checked. -/
theorem valid_grantSummary {parse : UrlParser} {script : ScriptSummary}
    (h : ScriptAccepted parse script) (dataTitle : JsString)
    (origin : Option JsString) :
    Valid (grantSummary dataTitle origin script) := by
  have hRoom : 0 < 120 := by decide
  have hLine := isLine_summaryLine dataTitle hRoom (isLine_dash hRoom)
  refine ⟨?_, fun field text hText => ?_⟩
  · show trim (script.title.getD _) ≠ []
    cases hTitle : script.title with
    | none => exact hLine.visible
    | some title => exact (h.title title hTitle).1
  · cases field with
    | title =>
        rw [← Option.some.inj hText]
        show Fits .title (script.title.getD _)
        cases hTitle : script.title with
        | none => exact hLine.fits (by decide) le_rfl
        | some title => exact (h.title title hTitle).2
    | description => exact h.description text hText
    | origin =>
        obtain ⟨name, -, hName⟩ := Option.map_eq_some_iff.mp hText
        rw [← hName]
        exact (isLine_summaryLine name (by decide) isLine_pod).fits
          (by decide) le_rfl
    | link => exact h.link text hText

/-- The summary of a request, and that of a saved script, are accepted by the
desktop's reader and by the IdP's, whatever the data holds. -/
theorem desktop_summaries_accepted (parse : UrlParser) :
    (∀ dataTitle origin value script,
      parseScriptSummary parse value = .ok script →
      Accepted parse (grantSummary dataTitle origin script)) ∧
    ∀ context, ∃ summary, savedScriptSummary parse context = .ok summary ∧
      Accepted parse summary := by
  constructor
  · intro dataTitle origin value script hScript
    have hAccepted := scriptAccepted_of_parse hScript
    exact accepted_of_valid (valid_grantSummary hAccepted dataTitle origin)
      hAccepted.web
  · intro context
    have hScript : ScriptAccepted parse
        ⟨none, some (contextDescription context), none⟩ := by
      refine ⟨fun _ h => (by cases h), fun text hText => ?_,
        fun _ h => (by cases h), fun _ h => (by cases h)⟩
      rw [← Option.some.inj hText]
      exact fits_contextDescription context
    have hSummary := accepted_of_valid
      (valid_grantSummary hScript (js "Run saved script: " ++ context.name)
        (some context.name)) hScript.web
    exact ⟨_, hSummary.desktop, hSummary⟩

/-- No URL parses. -/
def noUrls : UrlParser := fun _ => none

theorem desktop_summaries_accepted_surrogate :
    Accepted noUrls (grantSummary (0xD800 :: js "git\tpush") none
      ⟨none, none, none⟩) :=
  (desktop_summaries_accepted noUrls).1 (0xD800 :: js "git\tpush") none
    (some (.object [])) ⟨none, none, none⟩ rfl

end OpenApe.Ports.DesktopSummary
