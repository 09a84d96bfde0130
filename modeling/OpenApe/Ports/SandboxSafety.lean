import OpenApe.Ports.SandboxRules

/-!
# What a sandbox policy denies (`sandbox.ts`)

By the rules of a policy nothing at or below a denied path can be read or
written, at both levels.  No folder that leads to a closed path can be
written, so that a closed path is not moved aside.  At the owner level what
is protected is open only where the policy itself opens it again.

The root is no folder of this kind: `ancestorRule` starts below it, and
nothing can be put in its place.
-/

namespace OpenApe.Ports.SandboxSafety

open Verified.JsText Verified.Fallible
open Verified.Utf8 (wellPaired)
open Verified.Seatbelt
open SandboxPolicy SandboxRules

/-! ## Operations -/

def IsRead (operation : JsString) : Prop := js "file-read" <+: operation

def IsWrite (operation : JsString) : Prop := js "file-write" <+: operation

instance (operation : JsString) : Decidable (IsRead operation) :=
  inferInstanceAs (Decidable (_ <+: _))

instance (operation : JsString) : Decidable (IsWrite operation) :=
  inferInstanceAs (Decidable (_ <+: _))

theorem covers_fileReads {operation : JsString} (h : IsRead operation) :
    covers fileReads operation = true := by
  have hStem : (js "file-read").isPrefixOf operation = true :=
    List.isPrefixOf_iff_prefix.mpr h
  rw [covers, show fileReads.dropLast = js "file-read" from rfl, hStem,
    show fileReads.getLast? = some (unit '*') from rfl]
  simp

theorem covers_fileWrites {operation : JsString} (h : IsWrite operation) :
    covers fileWrites operation = true := by
  have hStem : (js "file-write").isPrefixOf operation = true :=
    List.isPrefixOf_iff_prefix.mpr h
  rw [covers, show fileWrites.dropLast = js "file-write" from rfl, hStem,
    show fileWrites.getLast? = some (unit '*') from rfl]
  simp

theorem fileReads_not_covers {operation : JsString} (h : IsWrite operation) :
    covers fileReads operation = false := by
  obtain ⟨rest, rfl⟩ := h
  rfl

theorem map_not_covers {operation : JsString}
    (h : IsRead operation ∨ IsWrite operation) :
    covers (js "file-map-executable") operation = false := by
  rcases h with ⟨rest, rfl⟩ | ⟨rest, rfl⟩
  · rfl
  · rfl

theorem metadata_covers {operation : JsString}
    (hCovers : covers (js "file-read-metadata") operation = true) :
    operation = js "file-read-metadata" := by
  have hStar : (js "file-read-metadata").getLast? ≠ some (unit '*') := by
    decide
  have hDefault : js "file-read-metadata" ≠ js "default" := by decide
  simp only [covers, Bool.or_eq_true, decide_eq_true_eq, Bool.and_eq_true]
    at hCovers
  rcases hCovers with (hCovers | hCovers) | hCovers
  · exact absurd hCovers hDefault
  · exact hCovers.symm
  · exact absurd hCovers.1 hStar

/-! ## What the rules match -/

/-- What a rule with filters has matched. -/
theorem of_rule_matches {rule : Rule} {operation : JsString} {path : Path}
    (h : rule.matches operation path = true) (hFilters : rule.filters ≠ []) :
    (∃ pattern ∈ rule.operations, covers pattern operation = true) ∧
      ∃ filter ∈ rule.filters, filter.matches path = true := by
  rw [Rule.matches, Bool.and_eq_true_iff, Bool.or_eq_true_iff,
    List.isEmpty_iff, List.any_eq_true, List.any_eq_true] at h
  exact ⟨h.1, h.2.resolve_left hFilters⟩

/-- A rule about paths matches at and below each of them. -/
theorem subpath_rule_matches {allow : Bool} {operations : List JsString}
    {paths : List JsString} {operation : JsString} {path : Path}
    (hOperation : ∃ pattern ∈ operations, covers pattern operation = true)
    (hPath : ∃ p ∈ paths, pathOf p <+: path) :
    Rule.matches operation path ⟨allow, operations, paths.map .subpath⟩ =
      true := by
  obtain ⟨p, hp, hBelow⟩ := hPath
  rw [Rule.matches, Bool.and_eq_true_iff, Bool.or_eq_true_iff, List.any_eq_true,
    List.any_eq_true]
  exact ⟨hOperation, .inr ⟨_, List.mem_map_of_mem hp,
    subpath_matches.mpr hBelow⟩⟩

theorem literal_rule_matches {allow : Bool} {operations : List JsString}
    {paths : List JsString} {operation : JsString} {path : Path}
    (hOperation : ∃ pattern ∈ operations, covers pattern operation = true)
    (hPath : ∃ p ∈ paths, pathOf p = path) :
    Rule.matches operation path ⟨allow, operations, paths.map .literal⟩ =
      true := by
  obtain ⟨p, hp, hEq⟩ := hPath
  rw [Rule.matches, Bool.and_eq_true_iff, Bool.or_eq_true_iff, List.any_eq_true,
    List.any_eq_true]
  exact ⟨hOperation, .inr ⟨_, List.mem_map_of_mem hp,
    literal_matches.mpr hEq⟩⟩

theorem covered_of_file {operation : JsString}
    (h : IsRead operation ∨ IsWrite operation) :
    ∃ pattern ∈ [fileReads, fileWrites], covers pattern operation = true := by
  rcases h with hRead | hWrite
  · exact ⟨fileReads, by simp, covers_fileReads hRead⟩
  · exact ⟨fileWrites, by simp, covers_fileWrites hWrite⟩

/-! ## Denied paths and the folders that lead to them -/

/-- The last rule denies what is at or below a denied path. -/
theorem denyRules_denies {front : List Rule} {deny : List JsString}
    {denied operation : JsString} {path : Path} (hMem : denied ∈ deny)
    (hBelow : pathOf denied <+: path)
    (hFile : IsRead operation ∨ IsWrite operation) :
    allowed (front ++ denyRules deny) operation path = false := by
  have hNonempty : ¬deny.isEmpty = true := by
    rw [List.isEmpty_iff]
    exact List.ne_nil_of_mem hMem
  rw [denyRules, if_neg hNonempty]
  apply allowed_append_of_deny
  · intro rule hRule
    rw [List.mem_singleton.mp hRule]
  · exact ⟨_, List.mem_singleton_self _,
      subpath_rule_matches (covered_of_file hFile) ⟨denied, hMem, hBelow⟩⟩

theorem denyRules_allow {deny : List JsString} {rule : Rule}
    (h : rule ∈ denyRules deny) : rule.allow = false := by
  rw [denyRules] at h
  split_ifs at h
  · cases h
  · rw [List.mem_singleton.mp h]

theorem ancestorRules_allow {paths : List JsString} {rule : Rule}
    (h : rule ∈ ancestorRules paths) : rule.allow = false := by
  rw [ancestorRules] at h
  split_ifs at h
  · cases h
  · rw [List.mem_singleton.mp h]

/-- Where only rules that deny follow, no folder on the way to one of the
paths can be written. -/
theorem ancestorRules_denies {front back : List Rule}
    {paths : List JsString} {closed operation : JsString} {folder : Path}
    (hBack : ∀ rule ∈ back, rule.allow = false)
    (hMem : closed ∈ paths) (hAbsolute : isAbsolute closed = true)
    (hPrefix : folder <+: pathOf closed) (hProper : folder ≠ pathOf closed)
    (hRoot : folder ≠ []) (hWrite : IsWrite operation) :
    allowed (front ++ (ancestorRules paths ++ back)) operation folder =
      false := by
  obtain ⟨ancestor, hAncestor, hFolder⟩ :=
    exists_ancestor hAbsolute hPrefix hProper hRoot
  have hListed : ancestor ∈ (paths.flatMap ancestorsOf).eraseDups :=
    List.mem_eraseDups.mpr (List.mem_flatMap.mpr ⟨closed, hMem, hAncestor⟩)
  have hNonempty : ¬(paths.flatMap ancestorsOf).eraseDups.isEmpty = true := by
    rw [List.isEmpty_iff]
    exact List.ne_nil_of_mem hListed
  apply allowed_append_of_deny
  · intro rule hRule
    rcases List.mem_append.mp hRule with hHere | hLater
    · exact ancestorRules_allow hHere
    · exact hBack rule hLater
  · rw [ancestorRules, if_neg hNonempty]
    exact ⟨_, List.mem_append_left _ (List.mem_singleton_self _),
      literal_rule_matches
        ⟨fileWrites, List.mem_singleton_self _, covers_fileWrites hWrite⟩
        ⟨ancestor, hListed, hFolder⟩⟩

/-! ## The rules at both levels -/

def protectedBy (policy : RuntimePolicy) : List JsString :=
  (policy.reach.map SandboxReach.protectedPaths).getD []

def IsOwner (policy : RuntimePolicy) : Prop :=
  policy.reach.map SandboxReach.level = some .owner

/-- The paths that stay closed: those denied, and at the owner level those
protected. -/
def closedBy (mandatory : List JsString) (policy : RuntimePolicy) :
    List JsString :=
  if policy.reach.map SandboxReach.level = some .owner then
    protectedBy policy ++ deniedBy mandatory policy
  else deniedBy mandatory policy

/-- The directories whose files may be written. -/
def writableDirectories (policy : RuntimePolicy) : List JsString :=
  policy.workspace :: policy.writeDirectories.getD []

/-- The directories whose files may be read, and no more. -/
def readableDirectories (policy : RuntimePolicy) : List JsString :=
  policy.readDirectories.getD [] ++ policy.runtimeDirectories

/-- What rules must not allow for a policy. -/
structure Guards (mandatory : List JsString) (policy : RuntimePolicy)
    (rules : List Rule) : Prop where
  /-- Nothing at or below a denied path is read or written. -/
  denied : ∀ path ∈ deniedBy mandatory policy, ∀ place : Path,
    pathOf path <+: place → ∀ operation,
      IsRead operation ∨ IsWrite operation →
        allowed rules operation place = false
  /-- No folder between the root and a closed path is written. -/
  ancestors : ∀ path ∈ closedBy mandatory policy, ∀ folder : Path,
    folder <+: pathOf path → folder ≠ pathOf path → folder ≠ [] →
      ∀ operation, IsWrite operation → allowed rules operation folder = false
  /-- At the owner level what is protected is written only where the policy
  lets the program write. -/
  protectedWrites : IsOwner policy → ∀ path ∈ protectedBy policy,
    ∀ place : Path, pathOf path <+: place → ∀ operation, IsWrite operation →
      allowed rules operation place = true →
        ∃ directory ∈ writableDirectories policy, pathOf directory <+: place
  /-- At the owner level what is protected is read only where the policy lets
  the program read. -/
  protectedReads : IsOwner policy → ∀ path ∈ protectedBy policy,
    ∀ place : Path, pathOf path <+: place → ∀ operation, IsRead operation →
      allowed rules operation place = true →
        (∃ directory ∈ writableDirectories policy ++ readableDirectories policy,
          pathOf directory <+: place) ∨
        (∃ file ∈ policy.executable :: policy.readFiles,
          pathOf file = place) ∨
        (operation = js "file-read-metadata" ∧
          ∃ file ∈ policy.metadataPaths.getD [], pathOf file = place)

theorem isolatedRules_denied {mandatory : List JsString}
    {policy : RuntimePolicy} {path operation : JsString} {place : Path}
    (hMem : path ∈ deniedBy mandatory policy) (hBelow : pathOf path <+: place)
    (hFile : IsRead operation ∨ IsWrite operation) :
    allowed (isolatedRules mandatory policy) operation place = false := by
  have hNonempty : ¬(deniedBy mandatory policy).isEmpty = true := by
    rw [List.isEmpty_iff]
    exact List.ne_nil_of_mem hMem
  rw [isolatedRules, if_neg hNonempty, ← List.append_assoc]
  exact denyRules_denies hMem hBelow hFile

theorem isolatedRules_ancestors {mandatory : List JsString}
    {policy : RuntimePolicy} {path operation : JsString} {folder : Path}
    (hMem : path ∈ deniedBy mandatory policy)
    (hAbsolute : isAbsolute path = true)
    (hPrefix : folder <+: pathOf path) (hProper : folder ≠ pathOf path)
    (hRoot : folder ≠ []) (hWrite : IsWrite operation) :
    allowed (isolatedRules mandatory policy) operation folder = false := by
  have hNonempty : ¬(deniedBy mandatory policy).isEmpty = true := by
    rw [List.isEmpty_iff]
    exact List.ne_nil_of_mem hMem
  rw [isolatedRules, if_neg hNonempty]
  exact ancestorRules_denies (fun _ hRule => denyRules_allow hRule) hMem
    hAbsolute hPrefix hProper hRoot hWrite

theorem ownerRules_ancestors {mandatory : List JsString}
    {policy : RuntimePolicy} {path operation : JsString} {folder : Path}
    (hMem : path ∈ protectedBy policy ++ deniedBy mandatory policy)
    (hAbsolute : isAbsolute path = true)
    (hPrefix : folder <+: pathOf path) (hProper : folder ≠ pathOf path)
    (hRoot : folder ≠ []) (hWrite : IsWrite operation) :
    allowed (ownerRules mandatory policy) operation folder = false := by
  rw [ownerRules, List.append_assoc, List.append_assoc]
  refine ancestorRules_denies (fun rule hRule => ?_) hMem hAbsolute hPrefix
    hProper hRoot hWrite
  rcases List.mem_append.mp hRule with hNetwork | hDenied
  · rw [List.mem_singleton.mp hNetwork]
  · exact denyRules_allow hDenied

/-- What allows a file operation on a protected path is one of the rules that
open paths again. -/
theorem ownerRules_opens {mandatory : List JsString} {policy : RuntimePolicy}
    {path operation : JsString} {place : Path}
    (hMem : path ∈ protectedBy policy) (hBelow : pathOf path <+: place)
    (hFile : IsRead operation ∨ IsWrite operation)
    (h : allowed (ownerRules mandatory policy) operation place = true) :
    (∃ directory ∈ writableDirectories policy, pathOf directory <+: place) ∨
      (covers fileReads operation = true ∧
        ((∃ directory ∈ readableDirectories policy,
            pathOf directory <+: place) ∨
          ∃ file ∈ policy.executable :: policy.readFiles,
            pathOf file = place)) ∨
      (operation = js "file-read-metadata" ∧
        ∃ file ∈ policy.metadataPaths.getD [], pathOf file = place) := by
  simp only [ownerRules, List.append_assoc, List.cons_append] at h
  have hProtected := @subpath_rule_matches false _ _ _ _
    (covered_of_file hFile) ⟨path, hMem, hBelow⟩
  obtain ⟨rule, hRule, hMatch, hAllow⟩ :=
    @exists_allow_of_deny [_] _ _ _ _ h hProtected rfl
  rw [List.mem_cons, List.mem_cons, List.nil_append, List.mem_append,
    List.mem_append, List.mem_cons] at hRule
  rcases hRule with rfl | rfl | hStat | hAncestor | rfl | hDenied
  · obtain ⟨-, filter, hFilter, hPath⟩ :=
      of_rule_matches hMatch (by simp)
    obtain ⟨directory, hDirectory, rfl⟩ := List.mem_map.mp hFilter
    exact .inl ⟨directory, hDirectory, subpath_matches.mp hPath⟩
  · obtain ⟨⟨pattern, hPattern, hCovers⟩, filter, hFilter, hPath⟩ :=
      of_rule_matches hMatch (by simp)
    have hReads : covers fileReads operation = true := by
      rcases List.mem_cons.mp hPattern with rfl | hMap
      · exact hCovers
      · rw [List.mem_singleton.mp hMap, map_not_covers hFile] at hCovers
        cases hCovers
    rcases List.mem_append.mp hFilter with hLiteral | hSubpath
    · obtain ⟨file, hFileMem, rfl⟩ := List.mem_map.mp hLiteral
      exact .inr (.inl ⟨hReads, .inr
        ⟨file, hFileMem, literal_matches.mp hPath⟩⟩)
    · obtain ⟨directory, hDirectory, rfl⟩ := List.mem_map.mp hSubpath
      exact .inr (.inl ⟨hReads, .inl
        ⟨directory, hDirectory, subpath_matches.mp hPath⟩⟩)
  · split_ifs at hStat with hNone
    · cases hStat
    · rw [List.mem_singleton.mp hStat] at hMatch
      have hNonempty : (policy.metadataPaths.getD []).map Filter.literal ≠ [] := by
        simpa using hNone
      obtain ⟨⟨pattern, hPattern, hCovers⟩, filter, hFilter, hPath⟩ :=
        of_rule_matches hMatch hNonempty
      rw [List.mem_singleton.mp hPattern] at hCovers
      obtain ⟨file, hFileMem, rfl⟩ := List.mem_map.mp hFilter
      exact .inr (.inr ⟨metadata_covers hCovers,
        file, hFileMem, literal_matches.mp hPath⟩)
  · rw [ancestorRules_allow hAncestor] at hAllow
    cases hAllow
  · cases hAllow
  · rw [denyRules_allow hDenied] at hAllow
    cases hAllow

/-! ## What an accepted policy denies -/

theorem isAbsolute_of_isolated {mandatory : List JsString}
    {policy : RuntimePolicy} {executable text : JsString}
    (h : isolatedPolicy mandatory policy executable = .ok text) :
    ∀ path ∈ deniedBy mandatory policy, isAbsolute path = true := by
  obtain ⟨_, -, h⟩ := bind_eq_ok.mp h
  obtain ⟨_, -, h⟩ := bind_eq_ok.mp h
  obtain ⟨_, -, h⟩ := bind_eq_ok.mp h
  obtain ⟨_, -, h⟩ := bind_eq_ok.mp h
  obtain ⟨_, -, h⟩ := bind_eq_ok.mp h
  obtain ⟨_, -, h⟩ := bind_eq_ok.mp h
  obtain ⟨_, hDenied, -⟩ := bind_eq_ok.mp h
  rw [deniedLines] at hDenied
  split_ifs at hDenied with hEmpty
  · rw [List.isEmpty_iff.mp hEmpty]
    intro path hPath
    cases hPath
  · obtain ⟨_, -, hDenied⟩ := bind_eq_ok.mp hDenied
    obtain ⟨_, hSubpaths, -⟩ := bind_eq_ok.mp hDenied
    exact isAbsolute_of_subpaths hSubpaths

theorem isAbsolute_of_owner {mandatory : List JsString}
    {policy : RuntimePolicy} {executable text : JsString}
    (h : ownerPolicy mandatory policy executable = .ok text) :
    ∀ path ∈ protectedBy policy ++ deniedBy mandatory policy,
      isAbsolute path = true := by
  rw [ownerPolicy] at h
  split_ifs at h
  obtain ⟨_, -, h⟩ := bind_eq_ok.mp h
  obtain ⟨_, -, h⟩ := bind_eq_ok.mp h
  obtain ⟨_, -, h⟩ := bind_eq_ok.mp h
  obtain ⟨_, -, h⟩ := bind_eq_ok.mp h
  obtain ⟨_, -, h⟩ := bind_eq_ok.mp h
  obtain ⟨_, -, h⟩ := bind_eq_ok.mp h
  obtain ⟨_, hSockets, -⟩ := bind_eq_ok.mp h
  obtain ⟨_, hTexts, -⟩ := bind_eq_ok.mp hSockets
  exact isAbsolute_of_mapM hTexts

theorem isAbsolute_of_closedBy {mandatory : List JsString}
    {policy : RuntimePolicy} {text : JsString}
    (h : sandboxPolicy mandatory policy = .ok text) :
    ∀ path ∈ closedBy mandatory policy, isAbsolute path = true := by
  obtain ⟨executable, -, h⟩ := bind_eq_ok.mp h
  rw [closedBy]
  split_ifs at h ⊢ with hLevel
  · exact isAbsolute_of_owner h
  · exact isAbsolute_of_isolated h

theorem guards_ownerRules {mandatory : List JsString} {policy : RuntimePolicy}
    (hOwner : IsOwner policy)
    (hAbsolute : ∀ path ∈ closedBy mandatory policy, isAbsolute path = true) :
    Guards mandatory policy (ownerRules mandatory policy) := by
  have hClosed : closedBy mandatory policy =
      protectedBy policy ++ deniedBy mandatory policy := if_pos hOwner
  constructor
  case denied =>
    intro path hMem place hBelow operation hFile
    exact denyRules_denies hMem hBelow hFile
  case ancestors =>
    intro path hMem folder hPrefix hProper hRoot operation hWrite
    exact ownerRules_ancestors (hClosed ▸ hMem) (hAbsolute path hMem) hPrefix
      hProper hRoot hWrite
  case protectedWrites =>
    intro _ path hMem place hBelow operation hWrite hAllowed
    rcases ownerRules_opens hMem hBelow (.inr hWrite) hAllowed with
      hWritable | ⟨hReads, -⟩ | ⟨rfl, -⟩
    · exact hWritable
    · rw [fileReads_not_covers hWrite] at hReads
      cases hReads
    · exact absurd hWrite (by decide)
  case protectedReads =>
    intro _ path hMem place hBelow operation hRead hAllowed
    rcases ownerRules_opens hMem hBelow (.inl hRead) hAllowed with
      ⟨directory, hDirectory, hPlace⟩ | ⟨-, hReadable⟩ | hStat
    · exact .inl ⟨directory, List.mem_append_left _ hDirectory, hPlace⟩
    · rcases hReadable with ⟨directory, hDirectory, hPlace⟩ | hFiles
      · exact .inl ⟨directory, List.mem_append_right _ hDirectory, hPlace⟩
      · exact .inr (.inl hFiles)
    · exact .inr (.inr hStat)

theorem guards_isolatedRules {mandatory : List JsString}
    {policy : RuntimePolicy} (hIsolated : ¬IsOwner policy)
    (hAbsolute : ∀ path ∈ closedBy mandatory policy, isAbsolute path = true) :
    Guards mandatory policy (isolatedRules mandatory policy) := by
  have hClosed : closedBy mandatory policy = deniedBy mandatory policy :=
    if_neg hIsolated
  constructor
  case denied =>
    intro path hMem place hBelow operation hFile
    exact isolatedRules_denied hMem hBelow hFile
  case ancestors =>
    intro path hMem folder hPrefix hProper hRoot operation hWrite
    exact isolatedRules_ancestors (hClosed ▸ hMem) (hAbsolute path hMem)
      hPrefix hProper hRoot hWrite
  case protectedWrites =>
    intro hOwner
    exact absurd hOwner hIsolated
  case protectedReads =>
    intro hOwner
    exact absurd hOwner hIsolated

/-- The text of an accepted policy whose paths are plain reads as its rules,
each with the very paths it was given, and these rules guard what they must. -/
theorem sandboxPolicy_guards {mandatory : List JsString}
    {policy : RuntimePolicy} {text : JsString}
    (h : sandboxPolicy mandatory policy = .ok text)
    (hPlain : ∀ path ∈ pathsOf mandatory policy, Plain path) :
    readPolicy text = some (sandboxRules mandatory policy) ∧
      Guards mandatory policy (sandboxRules mandatory policy) := by
  refine ⟨readPolicy_sandboxPolicy h hPlain, ?_⟩
  have hAbsolute := isAbsolute_of_closedBy h
  rw [sandboxRules]
  split_ifs with hOwner
  · exact guards_ownerRules hOwner hAbsolute
  · exact guards_isolatedRules hOwner hAbsolute

/-- A policy of the owner level: a protected folder, of which the workspace is
open again, and a denied path. -/
def ownerSample (denied : JsString) : RuntimePolicy where
  reach := some {
    level := .owner, protectedPaths := [js "/pods"], deny := some [denied] }
  executable := js "/bin/node"
  workspace := js "/pods/w"
  readFiles := []
  runtimeDirectories := []

theorem sandboxPolicy_guards_sample :
    ∃ text, sandboxPolicy [] (ownerSample (js "/keys")) = .ok text ∧
      readPolicy text =
        some (sandboxRules [] (ownerSample (js "/keys"))) ∧
      Guards [] (ownerSample (js "/keys"))
        (sandboxRules [] (ownerSample (js "/keys"))) := by
  have hOk : (sandboxPolicy [] (ownerSample (js "/keys"))).isOk = true := by
    decide
  obtain ⟨text, hText⟩ := isOk_iff.mp hOk
  refine ⟨text, hText, sandboxPolicy_guards hText ?_⟩
  have hPaths : (pathsOf [] (ownerSample (js "/keys"))).all
      (fun path => wellPaired path && path.all (0x20 ≤ ·)) = true := by
    decide
  intro path hPath
  have hPlain := List.all_eq_true.mp hPaths path hPath
  rw [Bool.and_eq_true, List.all_eq_true] at hPlain
  exact ⟨hPlain.1, fun u hu => of_decide_eq_true (hPlain.2 u hu)⟩

/-! ## The root, and a path that is not plain -/

/-- What the text of a policy decides. -/
def decides (policy : RuntimePolicy) (operation : JsString) (path : Path) :
    Option Bool :=
  match sandboxPolicy [] policy with
  | .ok text =>
      (readPolicy text).map fun rules => allowed rules operation path
  | .error _ => none

/-- The root leads to every path and may be written.  A path with a tabulator
is accepted and is written with an escape, so that it stays readable. -/
theorem sandboxPolicy_not_guarding :
    let policy := ownerSample (js "/k\tv")
    (js "/pods" ∈ closedBy [] policy ∧ [] <+: pathOf (js "/pods") ∧
      [] ≠ pathOf (js "/pods") ∧ IsWrite (js "file-write-data") ∧
      decides policy (js "file-write-data") [] = some true) ∧
    parseSandboxDenyPath (js "/k\tv") = some (js "/k\tv") ∧
    js "/k\tv" ∈ deniedBy [] policy ∧ IsRead (js "file-read-data") ∧
    decides policy (js "file-read-data") (pathOf (js "/k\tv")) =
      some true := by
  refine ⟨⟨by decide, List.nil_prefix, by decide, by decide,
    by decide +kernel⟩, by decide, by decide, by decide,
    by decide +kernel⟩

end OpenApe.Ports.SandboxSafety
