import Mathlib.Data.List.Dedup
import OpenApe.Ports.ProgramAuthorization
import OpenApe.Ports.ShellSegments

/-!
# Compound shell lines (`packages/shapes/src/compound.ts`, `shell-parser.ts`)

`bash -c` lines that chain commands are resolved segment by segment.  A
segment that cannot be modelled refuses the whole line; which tokens of the
shell parser count as such decides whether the resolved segments say all that
the shell runs.

The shell parser, the lookup of adapters and the SHA-256 of a text are
parameters.
-/

namespace OpenApe.Ports.CompoundShell

open Verified.JsText
open GrantTypes CliPermissions ShapeMatcher
open ShapeDigest (AdapterCli ShapesAdapter)
open ProgramAuthorization (computeArgvHash genericDetail)
open ShellSegments

/-! ## Parsing one segment -/

/-- What the shell parser reads: words, operators (a glob is the operator
`glob` with its pattern) and comments. -/
inductive ShellQuoteToken where
  | word (text : JsString)
  | op (op : JsString) (pattern : Option JsString)
  | comment (text : JsString)
  deriving DecidableEq

structure ParsedShellCommand where
  executable : JsString
  argv : List JsString
  isCompound : Bool
  raw : JsString

/-- `COMPOUND_OPERATORS` -/
def compoundOperators : List JsString :=
  [js "&&", js "||", js ";", js "|", js "&", js ">", js ">>", js "<"]

def isOperatorToken : ShellQuoteToken → Bool
  | .op op _ => compoundOperators.contains op
  | _ => false

/-- `/\$\(|`/` -/
def hasShellExpansion : JsString → Bool
  | [] => false
  | u :: rest =>
      (u == unit '$' && rest.head? == some (unit '(')) || u == unit '`' ||
        hasShellExpansion rest

/-- The words before the first token that is none. -/
def leadingWords : List ShellQuoteToken → List JsString
  | .word text :: tokens => text :: leadingWords tokens
  | _ => []

section Parser

variable (shellParse : JsString → Option (List ShellQuoteToken))

def parseShellCommand (raw : JsString) : Option ParsedShellCommand :=
  let trimmed := trim raw
  if trimmed = [] then none
  else
    match shellParse trimmed with
    | none => none
    | some tokens =>
        match leadingWords tokens with
        | [] => none
        | executable :: argv =>
            some
              { executable
                argv
                isCompound := hasShellExpansion trimmed ||
                  tokens.any isOperatorToken
                raw := trimmed }

end Parser

/-! ## Resolving one segment -/

structure LoadedAdapter where
  adapter : ShapesAdapter
  source : JsString
  digest : JsString
  synthetic : Option Bool := none

structure ResolvedCommand where
  adapter : ShapesAdapter
  source : JsString
  digest : JsString
  executable : JsString
  commandArgv : List JsString
  bindings : Record
  detail : CliAuthorizationDetail
  executionContext : ExecutionContext
  permission : JsString

def syntheticSchema : JsString := js "openape-shapes/v1"

def buildGenericAdapter (cliId : JsString) : LoadedAdapter where
  adapter :=
    { schema := syntheticSchema
      cli :=
        { id := cliId
          executable := cliId
          audience := some (js "shapes")
          version := some (js "synthetic") }
      operations := [] }
  source := js "<synthetic>"
  digest := js "synthetic"
  synthetic := some true

/-- The part of a path after its last `/`, trailing ones left out. -/
def basename (path : JsString) : JsString :=
  ((path.reverse.dropWhile (· = unit '/')).takeWhile
    (· ≠ unit '/')).reverse

section Resolver

variable [Collation] (digest : JsString → List UInt8)

/-- On a full argv, which has the executable. -/
def buildGenericResolved (cliId executable : JsString)
    (commandArgv : List JsString) : ResolvedCommand :=
  let adapter := buildGenericAdapter cliId
  let detail := genericDetail digest cliId executable commandArgv
  { adapter := adapter.adapter
    source := adapter.source
    digest := adapter.digest
    executable
    commandArgv
    bindings := .empty
    detail
    executionContext :=
      { argv := some (executable :: commandArgv)
        argvHash :=
          some (computeArgvHash digest (executable :: commandArgv))
        adapterId := cliId
        adapterVersion := syntheticSchema
        adapterDigest := adapter.digest
        resolvedExecutable := executable
        contextBindings := some .empty }
    permission := detail.permission }

def resolveCommand (loaded : LoadedAdapter) (executable : JsString)
    (commandArgv : List JsString) : Except JsError ResolvedCommand :=
  let cli := loaded.adapter.cli
  if executable = [] then .error (plainError (js "Missing wrapped command"))
  else if executable ≠ cli.executable then
    .error (plainError (js "Adapter " ++ cli.id ++
      js " expects executable " ++ cli.executable ++ js ", got " ++
      executable))
  else
    match matchArgvToOperation id loaded.adapter.operations commandArgv with
    | none =>
        .error (plainError (js "No adapter operation matched: " ++
          (js " ").intercalate (executable :: commandArgv)))
    | some (operation, bindings) =>
        match buildCliAuthDetail cli.id operation bindings with
        | .error error => .error error
        | .ok detail =>
            .ok
              { adapter := loaded.adapter
                source := loaded.source
                digest := loaded.digest
                executable
                commandArgv
                bindings
                detail
                executionContext :=
                  { argv := some (executable :: commandArgv)
                    argvHash := some
                      (computeArgvHash digest (executable :: commandArgv))
                    adapterId := cli.id
                    adapterVersion :=
                      cli.version.getD loaded.adapter.schema
                    adapterDigest := loaded.digest
                    resolvedExecutable := executable
                    contextBindings := some bindings }
                permission := detail.permission }

/-- One turn of the loop, once a segment is parsed. -/
def resolveSegment (adapter : Option LoadedAdapter)
    (parsed : ParsedShellCommand) : ResolvedCommand :=
  let executable := basename parsed.executable
  match adapter with
  | none => buildGenericResolved digest executable executable parsed.argv
  | some loaded =>
      match resolveCommand digest loaded executable parsed.argv with
      | .ok resolved => resolved
      | .error _ =>
          buildGenericResolved digest executable executable parsed.argv

/-! ## Resolving a line -/

structure ResolvedCompound where
  segments : List ResolvedCommand
  details : List CliAuthorizationDetail
  permissions : List JsString
  audience : JsString
  innerLine : JsString
  executionContext : ExecutionContext

variable (shellParse : JsString → Option (List ShellQuoteToken))
  (loadOrInstallAdapter : Nat → JsString → Option LoadedAdapter)

/-- The loop over the segments; `turn` numbers the lookups of adapters, whose
answers may change from one to the next. -/
def resolveSegments : Nat → List JsString → Option (List ResolvedCommand)
  | _, [] => some []
  | turn, segment :: segments =>
      match parseShellCommand shellParse segment with
      | none => none
      | some parsed =>
          if parsed.isCompound then none
          else
            (resolveSegments (turn + 1) segments).map
              (resolveSegment digest
                (loadOrInstallAdapter turn parsed.executable) parsed :: ·)

def audienceOf (resolved : ResolvedCommand) : JsString :=
  resolved.adapter.cli.audience.getD (js "shapes")

/-- What follows the loop: one audience, one merged set of details. -/
def compoundOf (shell innerLine : JsString)
    (resolvedSegments : List ResolvedCommand) : Option ResolvedCompound :=
  match (resolvedSegments.map audienceOf).dedup with
  | [audience] =>
      let details :=
        mergeCliAuthorizationDetails [resolvedSegments.map (·.detail)]
      some
        { segments := resolvedSegments
          details
          permissions := details.map (·.permission)
          audience
          innerLine
          executionContext :=
            { argv := some [shell, js "-c", innerLine]
              argvHash := some
                (computeArgvHash digest [shell, js "-c", innerLine])
              adapterId := js "compound"
              adapterVersion := js "openape-shapes/v1"
              adapterDigest := js "compound"
              resolvedExecutable := shell } }
  | _ => none

def resolveCompoundCommand (command : List JsString) :
    Option ResolvedCompound :=
  match command with
  | [shell, flag, innerLine] =>
      if shell ≠ js "bash" ∧ shell ≠ js "sh" then none
      else if flag ≠ js "-c" then none
      else
        let segments := splitCommandSegments innerLine
        if segments.length < 2 then none
        else if segments.any containsCommandSubstitution then none
        else
          (resolveSegments digest shellParse loadOrInstallAdapter 0
            segments).bind (compoundOf digest shell innerLine)
  | _ => none

end Resolver

/-! ## What an approval says -/

/-- The words among the tokens. -/
def words (tokens : List ShellQuoteToken) : List JsString :=
  tokens.filterMap (fun token =>
    match token with
    | .word text => some text
    | _ => none)

/-- The argv of a command, whose program goes by its base name. -/
def argvOf : List JsString → List JsString
  | [] => []
  | executable :: argv => basename executable :: argv

def isWord : ShellQuoteToken → Bool
  | .word _ => true
  | _ => false

/-- The operators at which a line is cut into segments. -/
def boundaryOperators : List JsString :=
  [js "&&", js "||", js ";", js "|", js "&"]

def isBoundary : ShellQuoteToken → Bool
  | .op op _ => boundaryOperators.contains op
  | _ => false

/-- A token that neither stands in an argv nor refuses the line. -/
def isStray (token : ShellQuoteToken) : Bool :=
  !isWord token && !isOperatorToken token

section Meaning

variable (shellParse : JsString → Option (List ShellQuoteToken))

/-- The resolved command has all the words of the segment, in order, and no
token but words and boundaries was read. -/
structure SaysAll (segment : JsString) (resolved : ResolvedCommand) : Prop
    where
  argv : ∃ tokens, shellParse (trim segment) = some tokens ∧
    resolved.executionContext.argv = some (argvOf (words tokens))
  tokens : ∀ tokens, shellParse (trim segment) = some tokens →
    ∀ token ∈ tokens, isWord token = true ∨ isBoundary token = true

variable [Collation] (digest : JsString → List UInt8)
  (loadOrInstallAdapter : Nat → JsString → Option LoadedAdapter)

/-- A line that is authorized is authorized as a whole. -/
def AuthorizedWhole (command : List JsString) : Prop :=
  ∀ compound, resolveCompoundCommand digest shellParse loadOrInstallAdapter
      command = some compound →
    ∃ shell innerLine, command = [shell, js "-c", innerLine] ∧
      List.Forall₂ (SaysAll shellParse) (splitCommandSegments innerLine)
        compound.segments

/-- The segment has no leading word, or an expansion or an operator that is
known to be unmodelled. -/
def Unmodelled (segment : JsString) : Prop :=
  ∀ parsed, parseShellCommand shellParse segment = some parsed →
    parsed.isCompound = true

/-- The resolved segments are for more than one audience. -/
def MixedAudiences (segments : List JsString) : Prop :=
  ∃ resolved, resolveSegments digest shellParse loadOrInstallAdapter 0
      segments = some resolved ∧
    ∃ a ∈ resolved, ∃ b ∈ resolved, audienceOf a ≠ audienceOf b

/-- What the code looks for before it resolves a line. -/
def Refused (command : List JsString) : Prop :=
  ∀ shell innerLine, command = [shell, js "-c", innerLine] →
    shell = js "bash" ∨ shell = js "sh" →
      (splitCommandSegments innerLine).length < 2 ∨
      (∃ segment ∈ splitCommandSegments innerLine,
        containsCommandSubstitution segment = true ∨
          Unmodelled shellParse segment) ∨
      MixedAudiences shellParse digest loadOrInstallAdapter
        (splitCommandSegments innerLine)

/-- Some segment of the line has a stray token. -/
def HasStray (command : List JsString) : Prop :=
  ∃ shell innerLine, command = [shell, js "-c", innerLine] ∧
    ∃ segment ∈ splitCommandSegments innerLine, ∃ tokens,
      shellParse (trim segment) = some tokens ∧
        ∃ token ∈ tokens, isStray token = true

end Meaning

/-! ## Segments -/

theorem leadingWords_eq_words {tokens : List ShellQuoteToken}
    (h : ∀ token ∈ tokens, isWord token = true) :
    leadingWords tokens = words tokens := by
  induction tokens with
  | nil => rfl
  | cons token tokens ih =>
      have hRest := ih (fun other hOther => h other (by simp [hOther]))
      cases token with
      | word text => simp [leadingWords, words, hRest]
      | op op pattern => exact absurd (h _ List.mem_cons_self) nofun
      | comment text => exact absurd (h _ List.mem_cons_self) nofun

theorem parseShellCommand_eq_some {shellParse} {raw : JsString}
    {parsed : ParsedShellCommand}
    (h : parseShellCommand shellParse raw = some parsed) :
    ∃ tokens, shellParse (trim raw) = some tokens ∧
      leadingWords tokens = parsed.executable :: parsed.argv ∧
      (parsed.isCompound = false → tokens.all (!isOperatorToken ·)) := by
  unfold parseShellCommand at h
  dsimp only at h
  split at h
  · cases h
  · split at h
    · cases h
    · rename_i tokens hTokens
      split at h
      · cases h
      · rename_i executable argv hWords
        cases h
        refine ⟨tokens, hTokens, hWords, fun hSimple => ?_⟩
        rw [Bool.or_eq_false_iff] at hSimple
        simpa using hSimple.2

theorem argv_resolveSegment [Collation] (digest : JsString → List UInt8)
    (adapter : Option LoadedAdapter) (parsed : ParsedShellCommand) :
    (resolveSegment digest adapter parsed).executionContext.argv =
      some (basename parsed.executable :: parsed.argv) := by
  unfold resolveSegment
  cases adapter with
  | none => rfl
  | some loaded =>
      dsimp only
      split
      · rename_i resolved hResolved
        unfold resolveCommand at hResolved
        dsimp only at hResolved
        split_ifs at hResolved
        split at hResolved
        · cases hResolved
        · split at hResolved
          · cases hResolved
          · cases hResolved
            rfl
      · rfl

/-- A resolved segment says all exactly when none of its tokens is stray. -/
theorem saysAll_iff [Collation] {shellParse} {segment : JsString}
    {parsed : ParsedShellCommand}
    (h : parseShellCommand shellParse segment = some parsed)
    (hSimple : parsed.isCompound = false) (digest : JsString → List UInt8)
    (adapter : Option LoadedAdapter) :
    SaysAll shellParse segment (resolveSegment digest adapter parsed) ↔
      ¬∃ tokens, shellParse (trim segment) = some tokens ∧
        ∃ token ∈ tokens, isStray token = true := by
  obtain ⟨tokens, hTokens, hWords, hNone⟩ := parseShellCommand_eq_some h
  have hPlain : ∀ token ∈ tokens, isOperatorToken token = false := by
    simpa using hNone hSimple
  have hBoundary : ∀ token, isBoundary token = true →
      isOperatorToken token = true := by
    intro token hToken
    cases token with
    | op op pattern =>
        simp only [isBoundary, boundaryOperators, isOperatorToken,
          compoundOperators, List.contains_eq_mem, decide_eq_true_eq,
          List.mem_cons, List.not_mem_nil, or_false] at hToken ⊢
        tauto
    | word text => cases hToken
    | comment text => cases hToken
  constructor
  · rintro ⟨-, hAll⟩ ⟨found, hFound, token, hToken, hStray⟩
    have hPlainToken : isOperatorToken token = false := by
      rw [hTokens] at hFound
      cases hFound
      exact hPlain token hToken
    rcases hAll found hFound token hToken with hWord | hCut
    · simp [isStray, hWord] at hStray
    · rw [hBoundary token hCut] at hPlainToken
      cases hPlainToken
  · intro hNoStray
    have hAllWords : ∀ token ∈ tokens, isWord token = true := by
      intro token hToken
      by_contra hNot
      rw [Bool.not_eq_true] at hNot
      refine hNoStray ⟨tokens, hTokens, token, hToken, ?_⟩
      simp [isStray, hNot, hPlain token hToken]
    refine ⟨⟨tokens, hTokens, ?_⟩, fun found hFound token hToken => ?_⟩
    · rw [argv_resolveSegment, ← leadingWords_eq_words hAllWords, hWords]
      rfl
    · rw [hTokens] at hFound
      cases hFound
      exact Or.inl (hAllWords token hToken)

/-! ## Lines -/

section Line

variable [Collation] {digest : JsString → List UInt8}
  {shellParse : JsString → Option (List ShellQuoteToken)}
  {loadOrInstallAdapter : Nat → JsString → Option LoadedAdapter}

theorem resolveSegments_eq_none_iff {turn : Nat} {segments : List JsString} :
    resolveSegments digest shellParse loadOrInstallAdapter turn segments =
      none ↔ ∃ segment ∈ segments, Unmodelled shellParse segment := by
  induction segments generalizing turn with
  | nil => simp [resolveSegments]
  | cons segment segments ih =>
      simp only [resolveSegments, List.exists_mem_cons_iff]
      cases hParsed : parseShellCommand shellParse segment with
      | none =>
          exact iff_of_true rfl (Or.inl (by simp [Unmodelled, hParsed]))
      | some parsed =>
          cases hCompound : parsed.isCompound with
          | true =>
              refine iff_of_true (by simp [hCompound]) (Or.inl ?_)
              simp [Unmodelled, hParsed, hCompound]
          | false =>
              have hModelled : ¬Unmodelled shellParse segment := by
                simp [Unmodelled, hParsed, hCompound]
              simp [hCompound, hModelled, ih]

/-- The command is what a segment resolves to that is parsed and modelled. -/
def ResolvedFrom (digest : JsString → List UInt8)
    (shellParse : JsString → Option (List ShellQuoteToken))
    (segment : JsString) (command : ResolvedCommand) : Prop :=
  ∃ parsed adapter, parseShellCommand shellParse segment = some parsed ∧
    parsed.isCompound = false ∧
    command = resolveSegment digest adapter parsed

theorem forall₂_of_resolveSegments {turn : Nat} {segments : List JsString}
    {resolved : List ResolvedCommand}
    (h : resolveSegments digest shellParse loadOrInstallAdapter turn
      segments = some resolved) :
    List.Forall₂ (ResolvedFrom digest shellParse) segments resolved := by
  induction segments generalizing turn resolved with
  | nil =>
      cases h
      exact .nil
  | cons segment segments ih =>
      rw [resolveSegments] at h
      cases hParsed : parseShellCommand shellParse segment with
      | none =>
          rw [hParsed] at h
          cases h
      | some parsed =>
          rw [hParsed] at h
          dsimp only at h
          split at h
          · cases h
          · rename_i hCompound
            obtain ⟨rest, hRest, rfl⟩ := Option.map_eq_some_iff.mp h
            exact .cons ⟨parsed, _, hParsed, by simpa using hCompound, rfl⟩
              (ih hRest)

theorem compoundOf_eq_none_iff {shell innerLine : JsString}
    {resolved : List ResolvedCommand} (hNe : resolved ≠ []) :
    compoundOf digest shell innerLine resolved = none ↔
      ∃ a ∈ resolved, ∃ b ∈ resolved, audienceOf a ≠ audienceOf b := by
  have hMem : ∀ audience, audience ∈ (resolved.map audienceOf).dedup ↔
      ∃ a ∈ resolved, audienceOf a = audience := by
    simp
  have hNodup := List.nodup_dedup (resolved.map audienceOf)
  unfold compoundOf
  split
  · rename_i audience hOne
    refine iff_of_false (by simp) ?_
    rintro ⟨a, ha, b, hb, hDiffer⟩
    simp only [hOne, List.mem_singleton] at hMem
    exact hDiffer (((hMem _).mpr ⟨a, ha, rfl⟩).trans
      ((hMem _).mpr ⟨b, hb, rfl⟩).symm)
  · rename_i hMany
    refine iff_of_true rfl ?_
    rcases hDedup : (resolved.map audienceOf).dedup with _ | ⟨x, _ | ⟨y, rest⟩⟩
    · rw [List.dedup_eq_nil, List.map_eq_nil_iff] at hDedup
      exact absurd hDedup hNe
    · exact absurd hDedup (hMany x)
    · rw [hDedup] at hMem hNodup
      obtain ⟨a, ha, rfl⟩ := (hMem x).mp (by simp)
      obtain ⟨b, hb, rfl⟩ := (hMem y).mp (by simp)
      refine ⟨a, ha, b, hb, ?_⟩
      rintro hSame
      simp [hSame] at hNodup

/-- The two shells, and a line of at least two segments without a nested
command. -/
def Chained (shell innerLine : JsString) : Prop :=
  (shell = js "bash" ∨ shell = js "sh") ∧
    2 ≤ (splitCommandSegments innerLine).length ∧
    ∀ segment ∈ splitCommandSegments innerLine,
      containsCommandSubstitution segment = false

/-- What a returned line has passed. -/
theorem resolveCompoundCommand_eq_some_iff {command : List JsString}
    {compound : ResolvedCompound} :
    resolveCompoundCommand digest shellParse loadOrInstallAdapter command =
        some compound ↔
      ∃ shell innerLine resolved, command = [shell, js "-c", innerLine] ∧
        Chained shell innerLine ∧
        resolveSegments digest shellParse loadOrInstallAdapter 0
          (splitCommandSegments innerLine) = some resolved ∧
        compoundOf digest shell innerLine resolved = some compound := by
  constructor
  · intro h
    unfold resolveCompoundCommand at h
    split at h
    · rename_i shell flag innerLine
      dsimp only at h
      split_ifs at h with hShell hFlag hSingle hNested
      obtain ⟨resolved, hResolved, hCompound⟩ :=
        Option.bind_eq_some_iff.mp h
      rw [not_not] at hFlag
      subst hFlag
      refine ⟨shell, innerLine, resolved, rfl, ⟨?_, ?_, ?_⟩, hResolved,
        hCompound⟩
      · tauto
      · omega
      · simpa using hNested
    · cases h
  · rintro ⟨shell, innerLine, resolved, rfl, ⟨hShell, hLength, hPlain⟩,
      hResolved, hCompound⟩
    have hNested : ¬(splitCommandSegments innerLine).any
        containsCommandSubstitution = true := by
      simpa using hPlain
    have hSingle : ¬(splitCommandSegments innerLine).length < 2 := by omega
    have hBad : ¬(shell ≠ js "bash" ∧ shell ≠ js "sh") := by tauto
    simp only [resolveCompoundCommand, if_neg hBad, ne_eq, not_true_eq_false,
      if_false, if_neg hSingle, if_neg hNested, hResolved, Option.bind_some,
      hCompound]

theorem ne_nil_of_resolveSegments {segments : List JsString}
    {resolved : List ResolvedCommand} (hLength : 2 ≤ segments.length)
    (h : resolveSegments digest shellParse loadOrInstallAdapter 0 segments =
      some resolved) : resolved ≠ [] := by
  rintro rfl
  have hSame := (forall₂_of_resolveSegments h).length_eq
  simp only [List.length_nil] at hSame
  omega

theorem not_refused_of_eq_some {command : List JsString}
    {compound : ResolvedCompound}
    (h : resolveCompoundCommand digest shellParse loadOrInstallAdapter
      command = some compound) :
    ¬Refused shellParse digest loadOrInstallAdapter command := by
  obtain ⟨shell, innerLine, resolved, rfl, ⟨hShell, hLength, hPlain⟩,
    hResolved, hCompound⟩ := resolveCompoundCommand_eq_some_iff.mp h
  intro hRefused
  rcases hRefused shell innerLine rfl hShell with
    hSingle | ⟨segment, hSegment, hNested | hUnmodelled⟩ |
      ⟨found, hFound, hMixed⟩
  · omega
  · rw [hPlain segment hSegment] at hNested
    cases hNested
  · have hNone : resolveSegments digest shellParse loadOrInstallAdapter 0
        (splitCommandSegments innerLine) = none :=
      resolveSegments_eq_none_iff.mpr ⟨segment, hSegment, hUnmodelled⟩
    rw [hResolved] at hNone
    cases hNone
  · rw [hResolved] at hFound
    cases hFound
    have hNone : compoundOf digest shell innerLine resolved = none :=
      (compoundOf_eq_none_iff
        (ne_nil_of_resolveSegments hLength hResolved)).mpr hMixed
    rw [hCompound] at hNone
    cases hNone

theorem refused_of_eq_none {command : List JsString}
    (h : resolveCompoundCommand digest shellParse loadOrInstallAdapter
      command = none) :
    Refused shellParse digest loadOrInstallAdapter command := by
  rintro shell innerLine rfl hShell
  by_contra hNot
  simp only [not_or, not_exists, not_and] at hNot
  obtain ⟨hLength, hSegments, hMixed⟩ := hNot
  have hPlain : ∀ segment ∈ splitCommandSegments innerLine,
      containsCommandSubstitution segment = false := fun segment hSegment =>
    Bool.eq_false_iff.mpr (hSegments segment hSegment).1
  cases hResolved : resolveSegments digest shellParse loadOrInstallAdapter 0
      (splitCommandSegments innerLine) with
  | none =>
      obtain ⟨segment, hSegment, hUnmodelled⟩ :=
        resolveSegments_eq_none_iff.mp hResolved
      exact (hSegments segment hSegment).2 hUnmodelled
  | some resolved =>
      cases hCompound : compoundOf digest shell innerLine resolved with
      | none =>
          exact hMixed ⟨resolved, hResolved, (compoundOf_eq_none_iff
            (ne_nil_of_resolveSegments (by omega) hResolved)).mp hCompound⟩
      | some compound =>
          have hSome := resolveCompoundCommand_eq_some_iff.mpr
            ⟨shell, innerLine, resolved, rfl, ⟨hShell, by omega, hPlain⟩,
              hResolved, hCompound⟩
          rw [h] at hSome
          cases hSome

theorem segments_of_compoundOf {shell innerLine : JsString}
    {resolved : List ResolvedCommand} {compound : ResolvedCompound}
    (h : compoundOf digest shell innerLine resolved = some compound) :
    compound.segments = resolved := by
  unfold compoundOf at h
  split at h
  · cases h
    rfl
  · cases h

/-- The segments of a returned line say all exactly when none of them has a
stray token. -/
theorem forall₂_saysAll_iff {segments : List JsString}
    {resolved : List ResolvedCommand}
    (h : List.Forall₂ (ResolvedFrom digest shellParse) segments resolved) :
    List.Forall₂ (SaysAll shellParse) segments resolved ↔
      ∀ segment ∈ segments, ¬∃ tokens,
        shellParse (trim segment) = some tokens ∧
          ∃ token ∈ tokens, isStray token = true := by
  induction h with
  | nil => simp
  | cons hHead hTail ih =>
      obtain ⟨parsed, adapter, hParsed, hSimple, rfl⟩ := hHead
      rw [List.forall₂_cons, List.forall_mem_cons,
        saysAll_iff hParsed hSimple digest adapter, ih]

/-- **A compound line is authorized as a whole** exactly when it is refused
or no segment of it has a stray token. -/
theorem authorizedWhole_iff (digest : JsString → List UInt8)
    (shellParse : JsString → Option (List ShellQuoteToken))
    (loadOrInstallAdapter : Nat → JsString → Option LoadedAdapter)
    (command : List JsString) :
    AuthorizedWhole shellParse digest loadOrInstallAdapter command ↔
      Refused shellParse digest loadOrInstallAdapter command ∨
        ¬HasStray shellParse command := by
  cases hResult : resolveCompoundCommand digest shellParse
      loadOrInstallAdapter command with
  | none =>
      refine iff_of_true ?_ (Or.inl (refused_of_eq_none hResult))
      intro compound hCompound
      rw [hResult] at hCompound
      cases hCompound
  | some compound =>
      obtain ⟨shell, innerLine, resolved, rfl, -, hResolved, hCompound⟩ :=
        resolveCompoundCommand_eq_some_iff.mp hResult
      have hSays := forall₂_saysAll_iff (forall₂_of_resolveSegments hResolved)
      rw [← segments_of_compoundOf hCompound] at hSays
      rw [or_iff_right (not_refused_of_eq_some hResult)]
      constructor
      · rintro hWhole ⟨shell', innerLine', hSame, segment, hSegment, hStray⟩
        obtain ⟨shell'', innerLine'', hSame', hAll⟩ := hWhole compound hResult
        cases hSame
        cases hSame'
        exact hSays.mp hAll segment hSegment hStray
      · intro hNoStray found hFound
        rw [hResult] at hFound
        cases hFound
        refine ⟨shell, innerLine, rfl, hSays.mpr ?_⟩
        intro segment hSegment hStray
        exact hNoStray ⟨shell, innerLine, rfl, segment, hSegment, hStray⟩

end Line

/-- What the shell parser reads of `rm *.log` and of `echo done`. -/
def globParse (text : JsString) : Option (List ShellQuoteToken) :=
  if text = js "rm *.log" then
    some [.word (js "rm"), .op (js "glob") (some (js "*.log"))]
  else if text = js "echo done" then
    some [.word (js "echo"), .word (js "done")]
  else none

/-- The approval for `rm *.log && echo done` is for `rm` and `echo done`. -/
theorem not_authorizedWhole_glob :
    letI := codeUnitCollation
    ¬AuthorizedWhole globParse (fun _ => []) (fun _ _ => none)
      [js "bash", js "-c", js "rm *.log && echo done"] := by
  intro hWhole
  have hSome : (@resolveCompoundCommand codeUnitCollation (fun _ => [])
      globParse (fun _ _ => none)
      [js "bash", js "-c", js "rm *.log && echo done"]).isSome = true := by
    decide
  obtain ⟨compound, hCompound⟩ := Option.isSome_iff_exists.mp hSome
  obtain ⟨shell, innerLine, hSame, hAll⟩ := hWhole compound hCompound
  cases hSame
  have hSplit : splitCommandSegments (js "rm *.log && echo done") =
      [js "rm *.log", js "echo done"] := by decide
  rw [hSplit] at hAll
  obtain ⟨first, rest, hFirst, -, -⟩ := List.forall₂_cons_left_iff.mp hAll
  have hRead : globParse (trim (js "rm *.log")) = some [.word (js "rm"),
      .op (js "glob") (some (js "*.log"))] := by decide
  have hToken := hFirst.tokens _ hRead
    (.op (js "glob") (some (js "*.log"))) (by simp)
  exact absurd hToken (by decide)

end OpenApe.Ports.CompoundShell
