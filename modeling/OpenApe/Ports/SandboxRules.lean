import OpenApe.Verified.Fallible
import OpenApe.Verified.Separators
import OpenApe.Verified.Utf8
import OpenApe.Ports.SandboxPolicy

/-!
# The rules of a sandbox policy (`sandbox.ts`)

The policy text, read back as rules: every rule holds the very paths it was
given, at both levels (`readPolicy_sandboxPolicy`).

`literal` refuses the marks that end a quoted text or start an escape, but
not the other units that its escaper rewrites.  The paths here are plain:
they have no control character and no half of a surrogate pair.
-/

namespace OpenApe.Ports.SandboxRules

open Verified.JsText Verified.Json Verified.Unicode Verified.Utf8
  Verified.Fallible Verified.Separators Verified.Seatbelt
open SandboxPolicy

/-! ## Paths that are written as themselves -/

def Plain (path : JsString) : Prop :=
  wellPaired path = true ∧ ∀ u ∈ path, 0x20 ≤ u

theorem escapeUnit_eq_self {u : CodeUnit} (hBound : 0x20 ≤ u)
    (hHigh : isHighSurrogate u = false) (hLow : isLowSurrogate u = false)
    (hForbidden : isForbidden u = false) : escapeUnit u = [u] := by
  have hNe : ∀ v : CodeUnit, v < 0x20 → u ≠ v := by
    rintro v hv rfl
    exact absurd hBound (UInt16.not_le.mpr hv)
  have hQuote : u ≠ unit '"' := by
    rintro rfl
    cases hForbidden
  have hBackslash : u ≠ unit '\\' := by
    rintro rfl
    cases hForbidden
  have hLess : decide (u < 0x20) = false :=
    decide_eq_false (UInt16.not_lt.mpr hBound)
  rw [escapeUnit, if_neg (hNe _ (by decide)), if_neg (hNe _ (by decide)),
    if_neg (hNe _ (by decide)), if_neg (hNe _ (by decide)),
    if_neg (hNe _ (by decide)), if_neg hQuote, if_neg hBackslash, hLess,
    hHigh, hLow]
  rfl

theorem escapeText_eq_self {path : JsString} (hPlain : Plain path)
    (hForbidden : path.any isForbidden = false) :
    escapeText path = path := by
  rw [List.any_eq_false] at hForbidden
  have hUnit : ∀ u ∈ path, isForbidden u = false := fun u hu =>
    Bool.eq_false_of_not_eq_true (hForbidden u hu)
  clear hForbidden
  induction path using escapeText.induct with
  | case1 => rfl
  | case2 u =>
      obtain ⟨hPaired, hBound⟩ := hPlain
      simp only [wellPaired, Bool.and_eq_true, Bool.not_eq_true'] at hPaired
      exact escapeUnit_eq_self (hBound u List.mem_cons_self) hPaired.1
        hPaired.2 (hUnit u List.mem_cons_self)
  | case3 u v rest hPair ih =>
      obtain ⟨hPaired, hBound⟩ := hPlain
      rw [wellPaired, if_pos hPair] at hPaired
      have hTail : ∀ w ∈ rest, w ∈ u :: v :: rest := fun w hw =>
        List.mem_cons_of_mem u (List.mem_cons_of_mem v hw)
      rw [escapeText, if_pos hPair,
        ih ⟨hPaired, fun w hw => hBound w (hTail w hw)⟩
          (fun w hw => hUnit w (hTail w hw))]
  | case4 u v rest hPair ih =>
      obtain ⟨hPaired, hBound⟩ := hPlain
      rw [wellPaired, if_neg hPair] at hPaired
      simp only [Bool.and_eq_true, Bool.not_eq_true'] at hPaired
      have hHere := escapeUnit_eq_self (hBound u List.mem_cons_self)
        hPaired.1.1 hPaired.1.2 (hUnit u List.mem_cons_self)
      have hRest := ih
        ⟨hPaired.2, fun w hw => hBound w (List.mem_cons_of_mem u hw)⟩
        (fun w hw => hUnit w (List.mem_cons_of_mem u hw))
      rw [escapeText, if_neg hPair, hHere, hRest]
      rfl

/-- What `literal` refuses. -/
theorem literal_eq_ok {path text : JsString} :
    literal path = .ok text ↔
      isAbsolute path = true ∧ path.any isForbidden = false ∧
        quote path = text := by
  rw [literal]
  cases isAbsolute path with
  | false => simp
  | true =>
      cases path.any isForbidden with
      | true => simp
      | false => simp

/-- The quoted text of a plain path denotes this path. -/
theorem reads_literal {path text : JsString} (hPlain : Plain path)
    (h : literal path = .ok text) : Reads text [.quoted path] := by
  obtain ⟨-, hForbidden, rfl⟩ := literal_eq_ok.mp h
  rw [quote, escapeText_eq_self hPlain hForbidden]
  apply reads_quoted
  intro hQuote
  exact List.any_eq_false.mp hForbidden _ hQuote rfl

/-! ## The folders that lead to a path -/

/-- The names that `ancestorsOf` walks. -/
theorem mem_ancestorsOf {path ancestor : JsString} :
    ancestor ∈ ancestorsOf path ↔
      ∃ i < (((path.splitOn (unit '/')).drop 1).dropLast).length,
        ancestor = unit '/' :: [unit '/'].intercalate
          ((((path.splitOn (unit '/')).drop 1).dropLast).take (i + 1)) := by
  simp only [ancestorsOf, List.mem_map, Prod.exists]
  constructor
  · rintro ⟨part, i, hMem, rfl⟩
    have hPart := List.mem_zipIdx_iff_getElem?.mp hMem
    obtain ⟨hLt, -⟩ := List.getElem?_eq_some_iff.mp hPart
    exact ⟨i, hLt, rfl⟩
  · rintro ⟨i, hLt, rfl⟩
    exact ⟨_, i, List.mem_zipIdx_iff_getElem?.mpr
      (List.getElem?_eq_getElem hLt), rfl⟩

/-- An absolute path is its folders and its last name. -/
theorem exists_parts {path : JsString} (h : isAbsolute path = true) :
    ∃ parts last, path = unit '/' :: [unit '/'].intercalate (parts ++ [last]) ∧
      ((path.splitOn (unit '/')).drop 1).dropLast = parts ∧
      ∀ part ∈ parts ++ [last], unit '/' ∉ part := by
  have hHead : path.head? = some (unit '/') := of_decide_eq_true h
  obtain ⟨rest, rfl⟩ := List.head?_eq_some_iff.mp hHead
  have hParts : (unit '/' :: rest).splitOn (unit '/') =
      [] :: rest.splitOn (unit '/') := by
    rw [List.splitOn_cons_eq_if_modifyHead, if_pos BEq.rfl]
  have hNonempty := List.splitOn_ne_nil (unit '/') rest
  have hConcat := List.dropLast_concat_getLast hNonempty
  refine ⟨(rest.splitOn (unit '/')).dropLast,
    (rest.splitOn (unit '/')).getLast hNonempty, ?_, ?_, ?_⟩
  · rw [hConcat, List.intercalate_splitOn]
  · rw [hParts, List.drop_one, List.tail_cons]
  · intro part hPart
    rw [hConcat] at hPart
    exact not_mem_of_mem_splitOn hPart

theorem plain_ancestor {path ancestor : JsString}
    (hAbsolute : isAbsolute path = true) (hPlain : Plain path)
    (h : ancestor ∈ ancestorsOf path) : Plain ancestor := by
  obtain ⟨parts, last, hPath, hParts, -⟩ := exists_parts hAbsolute
  obtain ⟨i, hLt, rfl⟩ := mem_ancestorsOf.mp h
  rw [hParts] at hLt ⊢
  have hTaken : parts.take (i + 1) ≠ [] := by
    rw [Ne, List.take_eq_nil_iff]
    rintro (hZero | rfl)
    · cases hZero
    · exact absurd hLt (Nat.not_lt_zero i)
  have hDropped : parts.drop (i + 1) ++ [last] ≠ [] := by simp
  have hSplit := intercalate_append (c := unit '/') hTaken hDropped
  rw [← List.append_assoc, List.take_append_drop] at hSplit
  rw [hSplit, ← List.cons_append] at hPath
  obtain ⟨hPaired, hBound⟩ := hPlain
  rw [hPath] at hPaired hBound
  exact ⟨wellPaired_of_append_cons rfl hPaired,
    fun u hu => hBound u (List.mem_append_left _ hu)⟩

/-- Every folder on the way to a path is among its ancestors, save the root. -/
theorem exists_ancestor {path : JsString}
    (hAbsolute : isAbsolute path = true) {folder : Path}
    (hPrefix : folder <+: pathOf path) (hProper : folder ≠ pathOf path)
    (hRoot : folder ≠ []) :
    ∃ ancestor ∈ ancestorsOf path, pathOf ancestor = folder := by
  obtain ⟨parts, last, hPath, hParts, hNames⟩ := exists_parts hAbsolute
  have hNonempty : parts ++ [last] ≠ [] := by simp
  rw [hPath, pathOf_intercalate hNonempty hNames, List.filter_append]
    at hPrefix hProper
  have hFolder : folder <+: parts.filter fun name => !name.isEmpty := by
    by_cases hLast : last.isEmpty = true
    · simpa [hLast] using hPrefix
    · have hKept : ([last].filter fun name => !name.isEmpty) = [last] := by
        simp [hLast]
      rw [hKept] at hPrefix hProper
      exact (List.prefix_concat_iff.mp hPrefix).resolve_left hProper
  obtain ⟨i, hLt, hTaken⟩ := exists_take_of_filter hFolder hRoot
  refine ⟨_, mem_ancestorsOf.mpr ⟨i, hParts ▸ hLt, rfl⟩, ?_⟩
  rw [hParts, pathOf_intercalate, hTaken]
  · rw [Ne, List.take_eq_nil_iff]
    rintro (hZero | rfl)
    · cases hZero
    · exact absurd hLt (Nat.not_lt_zero i)
  · intro part hPart
    exact hNames part (List.mem_append_left _ (List.mem_of_mem_take hPart))

/-! ## Pieces read back -/

/-- A filter about a path, as its text is written. -/
theorem lists_filterText {name text path : JsString}
    (hName : Opens (js "(" ++ name ++ js " ") [.word name])
    (hText : Reads text [.quoted path]) :
    Lists (filterText name text)
      [readFilter (.list [.word name, .quoted path])] :=
  ⟨[[.word name, .quoted path]],
    hName.reads hText (fun _ _ _ => rfl), rfl⟩

theorem lists_literal {text path : JsString}
    (hText : Reads text [.quoted path]) :
    Lists (filterText (js "literal") text) [.literal path] :=
  lists_filterText (fun _ _ => rfl) hText

theorem lists_subpath {text path : JsString}
    (hText : Reads text [.quoted path]) :
    Lists (filterText (js "subpath") text) [.subpath path] :=
  lists_filterText (fun _ _ => rfl) hText

/-- Texts of one filter each, with a space between them. -/
theorem lists_joined {texts : List JsString} {filters : List Filter}
    (h : List.Forall₂ (fun text filter => Lists text [filter]) texts filters) :
    Lists ((js " ").intercalate texts) filters := by
  induction h with
  | nil => exact lists_nil
  | @cons text filter texts filters hFirst hRest ih =>
      cases hRest with
      | nil => simpa using hFirst
      | cons _ _ =>
          rw [List.intercalate_cons_cons]
          exact hFirst.spaced (fun _ _ => rfl) ih

/-- The filters written for a list of plain paths. -/
theorem lists_mapM {render : JsString → JsString}
    {filter : JsString → Filter} {paths texts : List JsString}
    (hRender : ∀ {text path}, Reads text [.quoted path] →
      Lists (render text) [filter path])
    (h : paths.mapM literal = .ok texts) (hPlain : ∀ path ∈ paths, Plain path) :
    Lists ((js " ").intercalate (texts.map render)) (paths.map filter) := by
  apply lists_joined
  rw [List.forall₂_map_left_iff, List.forall₂_map_right_iff]
  have hBoth := (List.forall₂_and_left (p := Plain) paths texts).mpr
    ⟨hPlain, mapM_eq_ok.mp h⟩
  exact (hBoth.imp fun path text hText =>
    hRender (reads_literal hText.1 hText.2)).flip

theorem lists_subpaths {paths : List JsString} {text : JsString}
    (h : subpaths paths = .ok text) (hPlain : ∀ path ∈ paths, Plain path) :
    Lists text (paths.map .subpath) := by
  obtain ⟨texts, hTexts, hEq⟩ := bind_eq_ok.mp h
  cases hEq
  exact lists_mapM lists_subpath hTexts hPlain

theorem lists_literals {paths : List JsString} {text : JsString}
    (h : filtersOf (js "literal") paths = .ok text)
    (hPlain : ∀ path ∈ paths, Plain path) :
    Lists text (paths.map .literal) := by
  obtain ⟨texts, hTexts, hEq⟩ := bind_eq_ok.mp h
  cases hEq
  exact lists_mapM lists_literal hTexts hPlain

/-! ## The rules of a policy -/

def fileReads : JsString := js "file-read*"

def fileWrites : JsString := js "file-write*"

/-- The rule about the folders that lead to the paths, if there are any. -/
def ancestorRules (paths : List JsString) : List Rule :=
  let ancestors := (paths.flatMap ancestorsOf).eraseDups
  if ancestors.isEmpty then []
  else [⟨false, [fileWrites], ancestors.map .literal⟩]

/-- The rule about the paths themselves, if there are any. -/
def denyRules (deny : List JsString) : List Rule :=
  if deny.isEmpty then []
  else [⟨false, [fileReads, fileWrites], deny.map .subpath⟩]

theorem states_ancestorRule {paths : List JsString} {text : JsString}
    (h : ancestorRule paths = .ok text)
    (hAbsolute : ∀ path ∈ paths, isAbsolute path = true)
    (hPlain : ∀ path ∈ paths, Plain path) :
    States text (ancestorRules paths) := by
  rw [ancestorRule] at h
  rw [ancestorRules]
  split_ifs at h ⊢ with hEmpty
  · cases h
    exact states_nil
  · obtain ⟨filters, hFilters, hEq⟩ := bind_eq_ok.mp h
    cases hEq
    refine states_rule false [fileWrites] _ _ (fun _ _ => rfl)
      (lists_literals hFilters ?_) (fun _ _ _ => rfl)
    intro ancestor hAncestor
    obtain ⟨path, hPath, hMem⟩ :=
      List.mem_flatMap.mp (List.mem_eraseDups.mp hAncestor)
    exact plain_ancestor (hAbsolute path hPath) (hPlain path hPath) hMem

/-- The rules that `isolatedPolicy` writes. -/
def isolatedRules (mandatory : List JsString) (policy : RuntimePolicy) :
    List Rule :=
  let deny := deniedBy mandatory policy
  let system := [.subpath (js "/System/Library"), .subpath (js "/usr/lib")]
  let runtime := policy.runtimeDirectories.map .subpath
  [⟨false, [js "default"], []⟩,
    ⟨true, [js "process-exec"], [.literal policy.executable]⟩,
    ⟨true, [js "signal"], [.other]⟩,
    ⟨true, [js "sysctl-read"], []⟩,
    ⟨true, [js "mach-lookup"],
      [.other] ++ if policy.systemTrust.getD false then [.other] else []⟩,
    ⟨true, [js "file-read-metadata"], []⟩,
    ⟨true, [js "file-map-executable"],
      [.literal policy.executable] ++ system ++ runtime⟩,
    ⟨true, [fileReads],
      [.literal (js "/"), .literal (js "/dev/null"),
        .literal (js "/dev/urandom")] ++ [.literal policy.executable] ++
      system ++ policy.readFiles.map .literal ++
      (policy.readDirectories.getD []).map .subpath ++ runtime⟩,
    ⟨true, [fileWrites], [.literal (js "/dev/null")]⟩,
    ⟨true, [fileReads, fileWrites],
      [.subpath policy.workspace] ++
      (policy.writeDirectories.getD []).map .subpath⟩] ++
  (if (policy.networkPorts.getD []).isEmpty then []
    else [⟨true, [js "network-outbound"],
      (policy.networkPorts.getD []).map fun _ => .other⟩]) ++
  if deny.isEmpty then [] else ancestorRules deny ++ denyRules deny

/-- The rules that `ownerPolicy` writes. -/
def ownerRules (mandatory : List JsString) (policy : RuntimePolicy) :
    List Rule :=
  let protectedPaths := (policy.reach.map SandboxReach.protectedPaths).getD []
  let deny := deniedBy mandatory policy
  let closed := protectedPaths ++ deny
  [⟨true, [js "default"], []⟩,
    ⟨false, [fileReads, fileWrites], protectedPaths.map .subpath⟩,
    ⟨true, [fileReads, fileWrites],
      (policy.workspace :: policy.writeDirectories.getD []).map .subpath⟩,
    ⟨true, [fileReads, js "file-map-executable"],
      (policy.executable :: policy.readFiles).map .literal ++
      (policy.readDirectories.getD [] ++ policy.runtimeDirectories).map
        .subpath⟩] ++
  (if (policy.metadataPaths.getD []).isEmpty then []
    else [⟨true, [js "file-read-metadata"],
      (policy.metadataPaths.getD []).map .literal⟩]) ++
  ancestorRules closed ++
  [⟨false, [js "network-outbound"], closed.map fun _ => .other⟩] ++
  denyRules deny

/-- The rules that `sandboxPolicy` writes. -/
def sandboxRules (mandatory : List JsString) (policy : RuntimePolicy) :
    List Rule :=
  if policy.reach.map SandboxReach.level = some .owner then
    ownerRules mandatory policy
  else isolatedRules mandatory policy

/-- Every path that a policy names. -/
def pathsOf (mandatory : List JsString) (policy : RuntimePolicy) :
    List JsString :=
  policy.executable :: policy.workspace :: policy.readFiles ++
    policy.metadataPaths.getD [] ++ policy.runtimeDirectories ++
    policy.readDirectories.getD [] ++ policy.writeDirectories.getD [] ++
    (policy.reach.map SandboxReach.protectedPaths).getD [] ++
    deniedBy mandatory policy

/-- A port is no filter about files. -/
theorem lists_remotePort {port : Option Nat} {text : JsString}
    (h : remotePort port = .ok text) : Lists text [.other] ∧ text ≠ [] := by
  cases port with
  | none => cases h
  | some port =>
      simp only [remotePort] at h
      split_ifs at h
      cases h
      have hMark : unit '"' ∉ js "localhost:" ++ decimal port := by
        rw [List.mem_append, not_or]
        refine ⟨by decide, fun hDigit => ?_⟩
        have hUnit := List.all_eq_true.mp (decimal_units port) _ hDigit
        cases hUnit
      have hText : Reads (js "(remote tcp " ++
          (unit '"' :: (js "localhost:" ++ decimal port) ++ [unit '"']) ++
          js ")") _ :=
        Opens.reads
          (show Opens (js "(remote tcp ")
            [.word (js "remote"), .word (js "tcp")] from fun _ _ => rfl)
          (reads_quoted hMark) (fun _ _ _ => rfl)
      refine ⟨⟨[[.word (js "remote"), .word (js "tcp"),
        .quoted (js "localhost:" ++ decimal port)]], ?_, rfl⟩, ?_⟩
      · have hHead : js "(remote tcp \"localhost:" =
            js "(remote tcp " ++ unit '"' :: js "localhost:" := by decide
        have hTail : js "\")" = unit '"' :: js ")" := by decide
        rw [hHead, hTail]
        simpa using hText
      · exact List.append_ne_nil_of_left_ne_nil
          (List.append_ne_nil_of_left_ne_nil (by decide) _) _

theorem isAbsolute_of_mapM {paths texts : List JsString}
    (h : paths.mapM literal = .ok texts) :
    ∀ path ∈ paths, isAbsolute path = true := by
  intro path hPath
  have hAll := (isOk_mapM literal paths).mp (isOk_iff.mpr ⟨_, h⟩) path hPath
  obtain ⟨text, hText⟩ := isOk_iff.mp hAll
  exact (literal_eq_ok.mp hText).1

theorem isAbsolute_of_subpaths {paths : List JsString} {text : JsString}
    (h : subpaths paths = .ok text) :
    ∀ path ∈ paths, isAbsolute path = true := by
  obtain ⟨texts, hTexts, -⟩ := bind_eq_ok.mp h
  exact isAbsolute_of_mapM hTexts

theorem lists_ports {ports : List (Option Nat)} {texts : List JsString}
    (h : ports.mapM remotePort = .ok texts) :
    Lists ((js " ").intercalate texts) (ports.map fun _ => .other) := by
  apply lists_joined
  rw [List.forall₂_map_right_iff]
  exact ((mapM_eq_ok.mp h).imp fun _ _ hText =>
    (lists_remotePort hText).1).flip

/-- Text of pieces is empty only where there is none. -/
theorem intercalate_isEmpty {α : Type} {items : List α}
    {texts : List JsString}
    (h : List.Forall₂ (fun _ text => text ≠ []) items texts) :
    ((js " ").intercalate texts).isEmpty = items.isEmpty := by
  cases h with
  | nil => rfl
  | @cons item text items texts hFirst hRest =>
      cases hRest with
      | nil => simpa using hFirst
      | cons _ _ =>
          rw [List.intercalate_cons_cons]
          simp [hFirst]

theorem states_denied {deny : List JsString} {text : JsString}
    (h : deniedLines deny = .ok text) (hPlain : ∀ path ∈ deny, Plain path) :
    States text
      (if deny.isEmpty then [] else ancestorRules deny ++ denyRules deny) := by
  rw [deniedLines] at h
  split_ifs at h ⊢ with hEmpty
  · cases h
    exact states_nil
  · obtain ⟨ancestors, hAncestors, h⟩ := bind_eq_ok.mp h
    obtain ⟨denied, hDenied, h⟩ := bind_eq_ok.mp h
    cases h
    rw [denyRules, if_neg hEmpty]
    exact (states_ancestorRule hAncestors (isAbsolute_of_subpaths hDenied)
      hPlain).append
      (states_rule false [fileReads, fileWrites] _ _ (fun _ _ => rfl)
        (lists_subpaths hDenied hPlain) (fun _ _ _ => rfl))

/-! ## The constant pieces -/

/-- A path between quotation marks. -/
def marked (path : JsString) : JsString := unit '"' :: path ++ [unit '"']

theorem lists_system :
    Lists (js " (subpath \"/System/Library\") (subpath \"/usr/lib\") ")
      [.subpath (js "/System/Library"), .subpath (js "/usr/lib")] := by
  have hText : js " (subpath \"/System/Library\") (subpath \"/usr/lib\") " =
      js " " ++ filterText (js "subpath") (marked (js "/System/Library")) ++
        js " " ++ filterText (js "subpath") (marked (js "/usr/lib")) ++
        js " " := by decide
  have hSpace : Lists (js " ") [] := ⟨[], fun _ _ => rfl, rfl⟩
  rw [hText]
  exact (((hSpace.append (lists_subpath (reads_quoted (by decide)))).append
    hSpace).append (lists_subpath (reads_quoted (by decide)))).append hSpace

theorem lists_devices :
    Lists
      (js "(literal \"/\") (literal \"/dev/null\") (literal \"/dev/urandom\") ")
      [.literal (js "/"), .literal (js "/dev/null"),
        .literal (js "/dev/urandom")] := by
  have hText :
      js "(literal \"/\") (literal \"/dev/null\") (literal \"/dev/urandom\") " =
      filterText (js "literal") (marked (js "/")) ++ js " " ++
        filterText (js "literal") (marked (js "/dev/null")) ++ js " " ++
        filterText (js "literal") (marked (js "/dev/urandom")) ++
        js " " := by decide
  have hGap : Reads (js " ") [] := fun _ _ => rfl
  have hSpace : Lists (js " ") [] := ⟨[], hGap, rfl⟩
  rw [hText]
  exact (((lists_literal (reads_quoted (by decide))).spaced hGap
    (lists_literal (reads_quoted (by decide)))).spaced hGap
    (lists_literal (reads_quoted (by decide)))).append hSpace

theorem lists_services (systemTrust : Bool) :
    Lists
      (js "(global-name \"com.apple.system.logger\")" ++
        if systemTrust then
          js " (global-name \"com.apple.trustd.agent\")" else [])
      ([.other] ++ if systemTrust then [.other] else []) := by
  have hText : js " (global-name \"com.apple.trustd.agent\")" =
      js " " ++ filterText (js "global-name")
        (marked (js "com.apple.trustd.agent")) := by decide
  have hName : ∀ service, unit '"' ∉ service →
      Lists (filterText (js "global-name") (marked service)) [.other] :=
    fun _ h => lists_filterText (fun _ _ => rfl) (reads_quoted h)
  have hLogger : Lists (js "(global-name \"com.apple.system.logger\")")
      [.other] :=
    hName (js "com.apple.system.logger") (by decide)
  have hSpace : Lists (js " ") [] := ⟨[], fun _ _ => rfl, rfl⟩
  cases systemTrust with
  | false => exact hLogger.append lists_nil
  | true =>
      rw [if_pos rfl, hText]
      exact hLogger.append (hSpace.append (hName _ (by decide)))

/-- A rule without filters. -/
theorem states_bare (allow : Bool) (operation : JsString) {text : JsString}
    (h : Reads text [.list [.word (verdict allow), .word operation]]) :
    States text [⟨allow, [operation], []⟩] := by
  refine ⟨_, h, ?_⟩
  have hRule := readRule_verdict allow [operation] []
  rw [List.map_cons, List.map_nil, List.map_nil, List.append_nil] at hRule
  rw [List.filterMap_cons, hRule]
  rfl

theorem states_version : States (js "(version 1)\n") [] :=
  ⟨[.list [.word (js "version"), .word (js "1")]], fun _ _ => rfl, rfl⟩

/-! ## The isolated level -/

theorem states_isolatedText {policy : RuntimePolicy} {mandatory : List JsString}
    {executable readFiles runtime reads writes workspace denied : JsString}
    {ports : List JsString}
    (hExecutable : Lists (filterText (js "literal") executable)
      [.literal policy.executable])
    (hReadFiles : Lists readFiles (policy.readFiles.map .literal))
    (hRuntime : Lists runtime (policy.runtimeDirectories.map .subpath))
    (hReads : Lists reads ((policy.readDirectories.getD []).map .subpath))
    (hWrites : Lists writes ((policy.writeDirectories.getD []).map .subpath))
    (hPorts : (policy.networkPorts.getD []).mapM remotePort = .ok ports)
    (hWorkspace : Lists (filterText (js "subpath") workspace)
      [.subpath policy.workspace])
    (hDenied : States denied
      (if (deniedBy mandatory policy).isEmpty then []
        else ancestorRules (deniedBy mandatory policy) ++
          denyRules (deniedBy mandatory policy))) :
    States (isolatedText (policy.systemTrust.getD false) executable readFiles
        runtime reads writes ((js " ").intercalate ports) workspace denied)
      (isolatedRules mandatory policy) := by
  have hGap : Reads (js " ") [] := fun _ _ => rfl
  have hDefault : States (js "(deny default)\n") _ :=
    states_bare false (js "default") (fun _ _ => rfl)
  have hExec := states_rule true [js "process-exec"]
    (js "(allow process-exec ") (js ")\n") (fun _ _ => rfl)
    hExecutable (fun _ _ _ => rfl)
  have hSignal : States (js "(allow signal (target self))\n")
      [⟨true, [js "signal"], [.other]⟩] :=
    ⟨[.list [.word (js "allow"), .word (js "signal"),
      .list [.word (js "target"), .word (js "self")]]], fun _ _ => rfl, rfl⟩
  have hSysctl : States (js "(allow sysctl-read)\n") _ :=
    states_bare true (js "sysctl-read") (fun _ _ => rfl)
  have hLookup := states_rule true [js "mach-lookup"]
    (js "(allow mach-lookup ") (js ")\n") (fun _ _ => rfl)
    (lists_services (policy.systemTrust.getD false)) (fun _ _ _ => rfl)
  have hMetadata : States (js "(allow file-read-metadata)\n") _ :=
    states_bare true (js "file-read-metadata") (fun _ _ => rfl)
  have hMap := states_rule true [js "file-map-executable"]
    (js "(allow file-map-executable ") (js ")\n") (fun _ _ => rfl)
    ((hExecutable.append lists_system).append hRuntime)
    (fun _ _ _ => rfl)
  have hRead := states_rule true [fileReads]
    (js "(allow file-read* ") (js ")\n") (fun _ _ => rfl)
    (((((lists_devices.append hExecutable).append lists_system).append
      hReadFiles).spaced hGap hReads).spaced hGap hRuntime)
    (fun _ _ _ => rfl)
  have hNull : States (js "(allow file-write* (literal \"/dev/null\"))\n")
      [⟨true, [fileWrites], [.literal (js "/dev/null")]⟩] :=
    ⟨[.list [.word (js "allow"), .word fileWrites,
      .list [.word (js "literal"), .quoted (js "/dev/null")]]],
      fun _ _ => rfl, rfl⟩
  have hWrite := states_rule true [fileReads, fileWrites]
    (js "(allow file-read* file-write* ") (js ")\n") (fun _ _ => rfl)
    (hWorkspace.spaced hGap hWrites) (fun _ _ _ => rfl)
  have hNetwork : States
      (if ((js " ").intercalate ports).isEmpty then []
        else js "(allow network-outbound " ++ (js " ").intercalate ports ++
          js ")")
      (if (policy.networkPorts.getD []).isEmpty then []
        else [⟨true, [js "network-outbound"],
          (policy.networkPorts.getD []).map fun _ => .other⟩]) := by
    have hEmpty := intercalate_isEmpty ((mapM_eq_ok.mp hPorts).imp
      fun _ _ hPort => (lists_remotePort hPort).2)
    rw [hEmpty]
    split_ifs with hNone
    · exact states_nil
    · exact states_rule true [js "network-outbound"] _ _ (fun _ _ => rfl)
        (lists_ports hPorts) (fun _ _ _ => rfl)
  exact (((((((((((states_version.append hDefault).append hExec).append
    hSignal).append hSysctl).append hLookup).append hMetadata).append
    hMap).append hRead).append hNull).append hWrite).append
    hNetwork.line).append hDenied.line

theorem states_isolatedPolicy {mandatory : List JsString}
    {policy : RuntimePolicy} {executable text : JsString}
    (hExecutable : literal policy.executable = .ok executable)
    (h : isolatedPolicy mandatory policy executable = .ok text)
    (hPlain : ∀ path ∈ pathsOf mandatory policy, Plain path) :
    States text (isolatedRules mandatory policy) := by
  obtain ⟨readFiles, hReadFiles, h⟩ := bind_eq_ok.mp h
  obtain ⟨runtime, hRuntime, h⟩ := bind_eq_ok.mp h
  obtain ⟨reads, hReads, h⟩ := bind_eq_ok.mp h
  obtain ⟨writes, hWrites, h⟩ := bind_eq_ok.mp h
  obtain ⟨ports, hPorts, h⟩ := bind_eq_ok.mp h
  obtain ⟨workspace, hWorkspace, h⟩ := bind_eq_ok.mp h
  obtain ⟨denied, hDenied, h⟩ := bind_eq_ok.mp h
  cases h
  simp only [pathsOf, List.cons_append, List.append_assoc,
    List.forall_mem_cons, List.forall_mem_append] at hPlain
  obtain ⟨hExe, hWork, hFiles, -, hRun, hRead, hWrite, -, hDeny⟩ := hPlain
  exact states_isolatedText
    (lists_literal (reads_literal hExe hExecutable))
    (lists_literals hReadFiles hFiles) (lists_subpaths hRuntime hRun)
    (lists_subpaths hReads hRead) (lists_subpaths hWrites hWrite) hPorts
    (lists_subpath (reads_literal hWork hWorkspace))
    (states_denied hDenied hDeny)

/-! ## The owner level -/

theorem lists_sockets {paths : List JsString} {text : JsString}
    (h : sockets paths = .ok text) (hPlain : ∀ path ∈ paths, Plain path) :
    Lists text (paths.map fun _ => .other) := by
  obtain ⟨texts, hTexts, hEq⟩ := bind_eq_ok.mp h
  cases hEq
  refine lists_mapM (fun {text path} hText => ?_) hTexts hPlain
  have hFilter : Reads (filterText (js "subpath") text)
      [.list [.word (js "subpath"), .quoted path]] :=
    Opens.reads
      (show Opens (js "(" ++ js "subpath" ++ js " ") [.word (js "subpath")] from
        fun _ _ => rfl) hText (fun _ _ _ => rfl)
  have hSocket : Reads
      (js "(remote unix-socket " ++ filterText (js "subpath") text ++ js ")") _ :=
    Opens.reads
      (show Opens (js "(remote unix-socket ")
          [.word (js "remote"), .word (js "unix-socket")] from
        fun _ _ => rfl) hFilter (fun _ _ _ => rfl)
  exact ⟨[_], hSocket, rfl⟩

theorem states_ownerText {policy : RuntimePolicy} {mandatory : List JsString}
    {protectedFilters writes files reads metadata ancestors closedSockets
      denied : JsString}
    (hProtected : Lists protectedFilters
      (((policy.reach.map SandboxReach.protectedPaths).getD []).map .subpath))
    (hWrites : Lists writes
      ((policy.workspace :: policy.writeDirectories.getD []).map .subpath))
    (hFiles : Lists files
      ((policy.executable :: policy.readFiles).map .literal))
    (hReads : Lists reads
      ((policy.readDirectories.getD [] ++ policy.runtimeDirectories).map
        .subpath))
    (hMetadata : Lists metadata
      ((policy.metadataPaths.getD []).map .literal))
    (hEmpty : metadata.isEmpty = (policy.metadataPaths.getD []).isEmpty)
    (hAncestors : States ancestors (ancestorRules
      ((policy.reach.map SandboxReach.protectedPaths).getD [] ++
        deniedBy mandatory policy)))
    (hSockets : Lists closedSockets
      (((policy.reach.map SandboxReach.protectedPaths).getD [] ++
        deniedBy mandatory policy).map fun _ => .other))
    (hDenied : States denied (denyRules (deniedBy mandatory policy))) :
    States (ownerText protectedFilters writes files reads metadata ancestors
        closedSockets denied)
      (ownerRules mandatory policy) := by
  have hGap : Reads (js " ") [] := fun _ _ => rfl
  have hDefault : States (js "(allow default)\n") _ :=
    states_bare true (js "default") (fun _ _ => rfl)
  have hClosed := states_rule false [fileReads, fileWrites]
    (js "(deny file-read* file-write* ") (js ")\n") (fun _ _ => rfl)
    hProtected (fun _ _ _ => rfl)
  have hWrite := states_rule true [fileReads, fileWrites]
    (js "(allow file-read* file-write* ") (js ")\n") (fun _ _ => rfl)
    hWrites (fun _ _ _ => rfl)
  have hRead := states_rule true [fileReads, js "file-map-executable"]
    (js "(allow file-read* file-map-executable ") (js ")\n") (fun _ _ => rfl)
    (hFiles.spaced hGap hReads)
    (fun _ _ _ => rfl)
  have hStat : States
      (if metadata.isEmpty then []
        else js "(allow file-read-metadata " ++ metadata ++ js ")\n")
      (if (policy.metadataPaths.getD []).isEmpty then []
        else [⟨true, [js "file-read-metadata"],
          (policy.metadataPaths.getD []).map .literal⟩]) := by
    rw [hEmpty]
    split_ifs with hNone
    · exact states_nil
    · exact states_rule true [js "file-read-metadata"] _ _ (fun _ _ => rfl)
        hMetadata (fun _ _ _ => rfl)
  have hNetwork := states_rule false [js "network-outbound"]
    (js "(deny network-outbound ") (js ")\n") (fun _ _ => rfl)
    hSockets (fun _ _ _ => rfl)
  exact (((((((states_version.append hDefault).append hClosed).append
    hWrite).append hRead).append hStat).append hAncestors.line).append
    hNetwork).append hDenied.line

theorem states_ownerDenied {deny : List JsString} {text : JsString}
    (h : ownerDenied deny = .ok text) (hPlain : ∀ path ∈ deny, Plain path) :
    States text (denyRules deny) := by
  rw [ownerDenied] at h
  rw [denyRules]
  split_ifs at h ⊢ with hEmpty
  · cases h
    exact states_nil
  · obtain ⟨denied, hDenied, h⟩ := bind_eq_ok.mp h
    cases h
    exact states_rule false [fileReads, fileWrites] _ _ (fun _ _ => rfl)
      (lists_subpaths hDenied hPlain) (fun _ _ _ => rfl)

/-- Text of filters is empty only where there is none. -/
theorem filtersOf_isEmpty {name text : JsString} {paths : List JsString}
    (h : filtersOf name paths = .ok text) : text.isEmpty = paths.isEmpty := by
  obtain ⟨texts, hTexts, hEq⟩ := bind_eq_ok.mp h
  cases hEq
  apply intercalate_isEmpty
  rw [List.forall₂_map_right_iff]
  refine (mapM_eq_ok.mp hTexts).imp fun path text _ => ?_
  rw [filterText]
  simp [js, utf16]

theorem states_ownerPolicy {mandatory : List JsString}
    {policy : RuntimePolicy} {executable text : JsString}
    (hExecutable : literal policy.executable = .ok executable)
    (h : ownerPolicy mandatory policy executable = .ok text)
    (hPlain : ∀ path ∈ pathsOf mandatory policy, Plain path) :
    States text (ownerRules mandatory policy) := by
  rw [ownerPolicy] at h
  split_ifs at h
  obtain ⟨writes, hWrites, h⟩ := bind_eq_ok.mp h
  obtain ⟨reads, hReads, h⟩ := bind_eq_ok.mp h
  obtain ⟨readFiles, hReadFiles, h⟩ := bind_eq_ok.mp h
  obtain ⟨metadata, hMetadata, h⟩ := bind_eq_ok.mp h
  obtain ⟨protectedFilters, hProtected, h⟩ := bind_eq_ok.mp h
  obtain ⟨ancestors, hAncestors, h⟩ := bind_eq_ok.mp h
  obtain ⟨closedSockets, hSockets, h⟩ := bind_eq_ok.mp h
  obtain ⟨denied, hDenied, h⟩ := bind_eq_ok.mp h
  cases h
  simp only [pathsOf, List.cons_append, List.append_assoc,
    List.forall_mem_cons, List.forall_mem_append] at hPlain
  obtain ⟨hExe, hWork, hFiles, hStat, hRun, hRead, hWrite, hClosed, hDeny⟩ :=
    hPlain
  have hClosedAll := List.forall_mem_append.mpr ⟨hClosed, hDeny⟩
  have hAbsolute : ∀ path ∈
      (policy.reach.map SandboxReach.protectedPaths).getD [] ++
        deniedBy mandatory policy, isAbsolute path = true := by
    obtain ⟨texts, hTexts, -⟩ := bind_eq_ok.mp hSockets
    exact isAbsolute_of_mapM hTexts
  have hAll : (policy.executable :: policy.readFiles).mapM literal =
      .ok (executable :: readFiles) :=
    mapM_eq_ok.mpr (.cons hExecutable (mapM_eq_ok.mp hReadFiles))
  exact states_ownerText (lists_subpaths hProtected hClosed)
    (lists_subpaths hWrites (List.forall_mem_cons.mpr ⟨hWork, hWrite⟩))
    (lists_mapM lists_literal hAll (List.forall_mem_cons.mpr ⟨hExe, hFiles⟩))
    (lists_subpaths hReads (List.forall_mem_append.mpr ⟨hRead, hRun⟩))
    (lists_literals hMetadata hStat) (filtersOf_isEmpty hMetadata)
    (states_ancestorRule hAncestors hAbsolute hClosedAll)
    (lists_sockets hSockets hClosedAll) (states_ownerDenied hDenied hDeny)

/-- The text, read back: the rules, each with the very paths it was given. -/
theorem readPolicy_sandboxPolicy {mandatory : List JsString}
    {policy : RuntimePolicy} {text : JsString}
    (h : sandboxPolicy mandatory policy = .ok text)
    (hPlain : ∀ path ∈ pathsOf mandatory policy, Plain path) :
    readPolicy text = some (sandboxRules mandatory policy) := by
  obtain ⟨executable, hExecutable, h⟩ := bind_eq_ok.mp h
  apply readPolicy_of_states
  rw [sandboxRules]
  split_ifs at h ⊢ with hLevel
  · exact states_ownerPolicy hExecutable h hPlain
  · exact states_isolatedPolicy hExecutable h hPlain

end OpenApe.Ports.SandboxRules
