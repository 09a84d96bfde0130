import OpenApe.Verified.RegExpPieces

/-!
# Which secret goes with a request (`packages/proxy/src/secrets-match.ts`)

A secret names its target as a glob over `host[:port]/path`.  The glob is
compiled as a whole, so a `*` of its host part may read across the `/` that
ends the host, and a `?` after that `/` makes it optional.
-/

namespace OpenApe.Ports.SecretsMatch

open Verified.JsText
open Verified.RegExpSource (escape replaceUnit syntaxUnits)
open Verified.RegExpPieces

/-! ## The source -/

structure SecretEntry where
  name : JsString
  target : JsString
  header : JsString
  template : JsString
  value : JsString
  deriving DecidableEq

/-- What the matcher reads of a `URL`; `port` is empty unless explicit. -/
structure Url where
  hostname : JsString
  port : JsString
  pathname : JsString

/-- The characters that `compileGlob` escapes. -/
def escapedUnits : JsString := js ".+^${}()|[]\\"

def compileGlob (glob : JsString) :
    Except SyntaxError (List (Piece CodeUnit)) :=
  let escaped := replaceUnit (unit '*') (js ".*") (escape escapedUnits glob)
  newRegExp (js "^" ++ escaped ++ js "$")

/-- `glob.indexOf('*')`, or the length. -/
def literalPrefixLen (glob : JsString) : Nat := glob.idxOf (unit '*')

def hostString (url : Url) : JsString :=
  url.hostname ++ (if url.port ≠ [] then js ":" ++ url.port else [])

def targetString (url : Url) : JsString :=
  hostString url ++ (if url.pathname = js "/" then [] else url.pathname)

/-- The body of the loop of `matchSecret`. -/
def consider (targetStr : JsString) (best : Option (SecretEntry × Nat))
    (entry : SecretEntry) :
    Except SyntaxError (Option (SecretEntry × Nat)) :=
  match compileGlob entry.target with
  | .error error => .error error
  | .ok re =>
      if !accepts re targetStr && !accepts re (targetStr ++ js "/") then
        .ok best
      else
        let start := literalPrefixLen entry.target
        match best with
        | none => .ok (some (entry, start))
        | some (_, top) =>
            if start > top then .ok (some (entry, start)) else .ok best

def matchSecret (target : Url) (entries : List SecretEntry) :
    Except SyntaxError (Option SecretEntry) :=
  (entries.foldlM (consider (targetString target)) none).map
    (Option.map Prod.fst)

/-! ## What the secrets are for -/

/-- The host part of a target. -/
def hostPart (target : JsString) : JsString :=
  target.takeWhile (· ≠ unit '/')

def pathPart (target : JsString) : JsString :=
  target.dropWhile (· ≠ unit '/')

/-- The URL's host, with its explicit port, is matched by the host part of
the target. -/
def HostMatched (url : Url) (entry : SecretEntry) : Prop :=
  ∃ re, compileGlob (hostPart entry.target) = .ok re ∧
    Matches re (hostString url)

/-- A secret that is returned is one for the URL's host. -/
def SecretStaysHome (url : Url) (entries : List SecretEntry) : Prop :=
  ∀ entry, matchSecret url entries = .ok (some entry) → HostMatched url entry

/-- The target is matched by the URL's text, with or without a last `/`. -/
def Fits (url : Url) (entry : SecretEntry) : Prop :=
  ∃ re, compileGlob entry.target = .ok re ∧
    (Matches re (targetString url) ∨
      Matches re (targetString url ++ js "/"))

/-- The host part of the target reads a stretch of the URL's text that is
not its host, the path part reads the rest, and the host part does not match
the host. -/
def Strays (url : Url) (entry : SecretEntry) : Prop :=
  ∃ host path, compileGlob (hostPart entry.target) = .ok host ∧
    compileGlob (pathPart entry.target) = .ok path ∧
    ¬Matches host (hostString url) ∧
    ∃ x y, (x ++ y = targetString url ∨ x ++ y = targetString url ++ js "/") ∧
      Matches host x ∧ Matches path y

/-- Another entry of the list comes first for the URL. -/
def Outranked (url : Url) (before : List SecretEntry) (entry : SecretEntry)
    (after : List SecretEntry) : Prop :=
  (∃ other ∈ before, Fits url other ∧
    literalPrefixLen entry.target ≤ literalPrefixLen other.target) ∨
  (∃ other ∈ after, Fits url other ∧
    literalPrefixLen entry.target < literalPrefixLen other.target)

/-! ## Compiling a target in two parts -/

/-- The source of one unit of a glob. -/
def unitSource (u : CodeUnit) : JsString :=
  if u = unit '*' then js ".*"
  else if u ∈ escapedUnits then [unit '\\', u] else [u]

private theorem replace_escape (glob : JsString) :
    replaceUnit (unit '*') (js ".*") (escape escapedUnits glob) =
      glob.flatMap unitSource := by
  have hStar : unit '*' ∉ escapedUnits := by decide
  have hSlash : unit '\\' ≠ unit '*' := by decide
  induction glob with
  | nil => rfl
  | cons u glob ih =>
      have hUnit : replaceUnit (unit '*') (js ".*") (escape escapedUnits [u]) =
          unitSource u := by
        by_cases hu : u = unit '*'
        · subst hu
          simp [escape, replaceUnit, unitSource, hStar]
        · by_cases hMem : u ∈ escapedUnits
          · simp [escape, replaceUnit, unitSource, hMem, hSlash, hu]
          · simp [escape, replaceUnit, unitSource, hMem, hu]
      rw [List.flatMap_cons, ← ih, ← hUnit]
      simp [escape, replaceUnit, List.flatMap_append]

/-- The pieces of a glob. -/
def globPieces (glob : JsString) : Option (List (Piece CodeUnit)) :=
  parseBody (glob.flatMap unitSource)

theorem compileGlob_eq_ok {glob : JsString} {re : List (Piece CodeUnit)} :
    compileGlob glob = .ok re ↔ globPieces glob = some re := by
  rw [compileGlob, replace_escape, newRegExp, parse_anchored, globPieces]
  cases parseBody (glob.flatMap unitSource) with
  | none => simp
  | some pieces => simp

/-- The source of a unit leaves no atom half read. -/
private theorem settled_unitSource (u : CodeUnit) (r next : Reading)
    (hr : Settled r) (hNext : (unitSource u).foldlM step r = some next) :
    Settled next := by
  unfold unitSource at hNext
  split_ifs at hNext with hStar hMem
  · rw [show js ".*" = [unit '.', unit '*'] from rfl,
      List.foldlM_cons] at hNext
    obtain ⟨middle, hFirst, hNext⟩ := Option.bind_eq_some_iff.mp hNext
    rw [List.foldlM_cons] at hNext
    obtain ⟨last, hSecond, hLast⟩ := Option.bind_eq_some_iff.mp hNext
    cases hLast
    exact settled_step (settled_step hr (by decide) (by decide) hFirst)
      (by decide) (by decide) hSecond
  · exact settled_escape hr hNext
  · have hNe : ∀ v, v ∈ escapedUnits → u ≠ v := by
      rintro v hv rfl
      exact hMem hv
    rw [List.foldlM_cons] at hNext
    obtain ⟨last, hStep, hLast⟩ := Option.bind_eq_some_iff.mp hNext
    cases hLast
    exact settled_step hr (hNe _ (by decide)) (hNe _ (by decide)) hStep

theorem globPieces_append (a b : JsString) :
    globPieces (a ++ unit '/' :: b) = (globPieces a).bind
      (fun host => (globPieces (unit '/' :: b)).map (host ++ ·)) := by
  have hSlash : unitSource (unit '/') = [unit '/'] := by decide
  have hSettled : ∀ r, (a.flatMap unitSource).foldlM step ⟨[], .start⟩ =
      some r → Settled r := fun r hr =>
    invariant_flatMap (fun u _ => settled_unitSource u) ⟨[], rfl⟩ hr
  have hAppend := parseBody_append (b := b.flatMap unitSource) hSettled
    (by decide : unit '/' ∉ syntaxUnits)
  simpa [globPieces, List.flatMap_append, List.flatMap_cons, hSlash]
    using hAppend

/-- The path part is empty or starts with the first `/`. -/
theorem pathPart_eq (target : JsString) :
    pathPart target = [] ∨ ∃ rest, pathPart target = unit '/' :: rest := by
  cases hPath : pathPart target with
  | nil => exact Or.inl rfl
  | cons u rest =>
      have hHead := List.head?_dropWhile_not (· ≠ unit '/') target
      rw [show target.dropWhile (· ≠ unit '/') = u :: rest from hPath]
        at hHead
      have hu : u = unit '/' := by simpa using hHead
      exact Or.inr ⟨rest, by rw [hu]⟩

/-- A target compiles to what its two parts compile to. -/
theorem globPieces_target {target : JsString} {re : List (Piece CodeUnit)} :
    globPieces target = some re ↔
      ∃ host path, globPieces (hostPart target) = some host ∧
        globPieces (pathPart target) = some path ∧ re = host ++ path := by
  have hTarget : hostPart target ++ pathPart target = target :=
    List.takeWhile_append_dropWhile
  rcases pathPart_eq target with hPath | ⟨path, hPath⟩
  · rw [hPath, List.append_nil] at hTarget
    have hEmpty : globPieces [] = some [] := rfl
    simp [hPath, hTarget, hEmpty]
  · rw [hPath] at hTarget
    rw [← hTarget, globPieces_append, hTarget, hPath]
    cases globPieces (hostPart target) <;>
      cases globPieces (unit '/' :: path) <;> simp [eq_comm]

/-- A fitting target strays exactly when its host part misses the host. -/
theorem strays_iff {url : Url} {entry : SecretEntry} :
    Strays url entry ↔ Fits url entry ∧ ¬HostMatched url entry := by
  constructor
  · rintro ⟨host, path, hHost, hPath, hMiss, x, y, hText, hx, hy⟩
    have hPieces := globPieces_target.mpr ⟨host, path,
      compileGlob_eq_ok.mp hHost, compileGlob_eq_ok.mp hPath, rfl⟩
    have hRead := matches_append.mpr ⟨x, y, rfl, hx, hy⟩
    refine ⟨⟨host ++ path, compileGlob_eq_ok.mpr hPieces, ?_⟩, ?_⟩
    · rcases hText with hText | hText
      · exact Or.inl (hText ▸ hRead)
      · exact Or.inr (hText ▸ hRead)
    · rintro ⟨found, hFound, hMatch⟩
      rw [hHost] at hFound
      cases hFound
      exact hMiss hMatch
  · rintro ⟨⟨re, hRe, hText⟩, hMiss⟩
    obtain ⟨host, path, hHost, hPath, rfl⟩ :=
      globPieces_target.mp (compileGlob_eq_ok.mp hRe)
    have hHost' := compileGlob_eq_ok.mpr hHost
    refine ⟨host, path, hHost', compileGlob_eq_ok.mpr hPath,
      fun hMatch => hMiss ⟨host, hHost', hMatch⟩, ?_⟩
    rcases hText with hText | hText
    · obtain ⟨x, y, hSplit, hx, hy⟩ := matches_append.mp hText
      exact ⟨x, y, Or.inl hSplit.symm, hx, hy⟩
    · obtain ⟨x, y, hSplit, hx, hy⟩ := matches_append.mp hText
      exact ⟨x, y, Or.inr hSplit.symm, hx, hy⟩

/-! ## The entry that is returned -/

/-- The entry stands in the list at a place where none outranks it. -/
structure Leads (url : Url) (before : List SecretEntry) (entry : SecretEntry)
    (after : List SecretEntry) : Prop where
  fits : Fits url entry
  first : ¬Outranked url before entry after

/-- What the loop has found in the entries it has seen. -/
def Found (url : Url) (seen : List SecretEntry) :
    Option (SecretEntry × Nat) → Prop
  | none => ∀ entry ∈ seen, ¬Fits url entry
  | some (entry, start) => start = literalPrefixLen entry.target ∧
      ∃ before after, seen = before ++ entry :: after ∧
        Leads url before entry after

/-- What one turn of the loop does. -/
theorem consider_eq_ok {url : Url} {best next : Option (SecretEntry × Nat)}
    {entry : SecretEntry}
    (h : consider (targetString url) best entry = .ok next) :
    (¬Fits url entry ∧ next = best) ∨
      (Fits url entry ∧
        ((∃ other top, best = some (other, top) ∧
            literalPrefixLen entry.target ≤ top ∧ next = best) ∨
          ((∀ other top, best = some (other, top) →
              top < literalPrefixLen entry.target) ∧
            next = some (entry, literalPrefixLen entry.target)))) := by
  unfold consider at h
  cases hCompile : compileGlob entry.target with
  | error error =>
      rw [hCompile] at h
      cases h
  | ok re =>
      have hFits : Fits url entry ↔ accepts re (targetString url) = true ∨
          accepts re (targetString url ++ js "/") = true := by
        simp only [accepts_iff, Fits, hCompile, Except.ok.injEq,
          exists_eq_left']
      rw [hCompile] at h
      dsimp only at h
      split at h
      · rename_i hMiss
        rw [Bool.and_eq_true, Bool.not_eq_true', Bool.not_eq_true'] at hMiss
        cases h
        refine Or.inl ⟨?_, rfl⟩
        rw [hFits, hMiss.1, hMiss.2]
        simp
      · rename_i hHit
        refine Or.inr ⟨hFits.mpr ?_, ?_⟩
        · rw [Bool.and_eq_true, Bool.not_eq_true', Bool.not_eq_true',
            not_and_or, Bool.not_eq_false, Bool.not_eq_false] at hHit
          exact hHit
        · rcases best with _ | ⟨other, top⟩
          · cases h
            exact Or.inr ⟨fun _ _ hNone => (nomatch hNone), rfl⟩
          · dsimp only at h
            split at h
            · rename_i hAbove
              cases h
              refine Or.inr ⟨fun _ _ hSome => ?_, rfl⟩
              cases hSome
              exact hAbove
            · rename_i hBelow
              cases h
              exact Or.inl ⟨other, top, rfl, Nat.le_of_not_lt hBelow, rfl⟩

theorem found_consider {url : Url} {seen : List SecretEntry}
    {best next : Option (SecretEntry × Nat)} {entry : SecretEntry}
    (hFound : Found url seen best)
    (h : consider (targetString url) best entry = .ok next) :
    Found url (seen ++ [entry]) next := by
  rcases consider_eq_ok h with ⟨hMiss, rfl⟩ | ⟨hFits, hRank⟩
  · -- the entry does not fit: what led still leads
    rcases next with _ | ⟨leader, start⟩
    · intro other hOther
      rcases List.mem_append.mp hOther with hOld | hNew
      · exact hFound other hOld
      · rw [List.mem_singleton.mp hNew]
        exact hMiss
    · obtain ⟨hStart, before, after, rfl, hLeads⟩ := hFound
      refine ⟨hStart, before, after ++ [entry], by simp, hLeads.fits, ?_⟩
      rintro (hBefore | ⟨other, hOther, hOtherFits, hLess⟩)
      · exact hLeads.first (Or.inl hBefore)
      · rcases List.mem_append.mp hOther with hOld | hNew
        · exact hLeads.first (Or.inr ⟨other, hOld, hOtherFits, hLess⟩)
        · rw [List.mem_singleton.mp hNew] at hOtherFits
          exact hMiss hOtherFits
  · rcases hRank with ⟨leader, top, rfl, hLow, rfl⟩ | ⟨hTop, rfl⟩
    · obtain ⟨rfl, before, after, rfl, hLeads⟩ := hFound
      refine ⟨rfl, before, after ++ [entry], by simp, hLeads.fits, ?_⟩
      rintro (hBefore | ⟨other, hOther, hOtherFits, hLess⟩)
      · exact hLeads.first (Or.inl hBefore)
      · rcases List.mem_append.mp hOther with hOld | hNew
        · exact hLeads.first (Or.inr ⟨other, hOld, hOtherFits, hLess⟩)
        · rw [List.mem_singleton.mp hNew] at hLess
          exact absurd hLow (Nat.not_le_of_lt hLess)
    · refine ⟨rfl, seen, [], rfl, hFits, ?_⟩
      rintro (⟨other, hOther, hOtherFits, hLess⟩ | ⟨other, hOther, -⟩)
      · rcases best with _ | ⟨leader, top⟩
        · exact hFound other hOther hOtherFits
        · obtain ⟨rfl, before, after, rfl, hLeads⟩ := hFound
          have hBelow := hTop leader _ rfl
          rcases List.mem_append.mp hOther with hBefore | hRest
          · exact hLeads.first (Or.inl ⟨other, hBefore, hOtherFits,
              Nat.le_trans (Nat.le_of_lt hBelow) hLess⟩)
          · rcases List.mem_cons.mp hRest with rfl | hAfter
            · exact absurd hLess (Nat.not_le_of_lt hBelow)
            · exact hLeads.first (Or.inr ⟨other, hAfter, hOtherFits,
                Nat.lt_of_lt_of_le hBelow hLess⟩)
      · cases hOther

theorem found_foldlM {url : Url} {entries seen : List SecretEntry}
    {best last : Option (SecretEntry × Nat)} (hFound : Found url seen best)
    (h : entries.foldlM (consider (targetString url)) best = .ok last) :
    Found url (seen ++ entries) last := by
  induction entries generalizing seen best with
  | nil =>
      cases h
      rwa [List.append_nil]
  | cons entry entries ih =>
      rw [List.foldlM_cons] at h
      cases hTurn : consider (targetString url) best entry with
      | error error =>
          rw [hTurn] at h
          cases h
      | ok next =>
          rw [hTurn] at h
          have hRest := ih (found_consider hFound hTurn) h
          rwa [List.append_assoc, List.singleton_append] at hRest

/-- The loop ends unless a target does not compile. -/
theorem foldlM_eq_ok_iff {text : JsString} {entries : List SecretEntry}
    {best : Option (SecretEntry × Nat)} :
    (∃ last, entries.foldlM (consider text) best = .ok last) ↔
      ∀ entry ∈ entries, ∃ re, compileGlob entry.target = .ok re := by
  induction entries generalizing best with
  | nil => exact iff_of_true ⟨best, rfl⟩ (by simp)
  | cons entry entries ih =>
      rw [List.foldlM_cons, List.forall_mem_cons]
      cases hCompile : compileGlob entry.target with
      | error error =>
          have hTurn : consider text best entry = .error error := by
            simp [consider, hCompile]
          rw [hTurn]
          refine iff_of_false ?_ ?_
          · rintro ⟨last, hLast⟩
            cases hLast
          · rintro ⟨⟨re, hRe⟩, -⟩
            cases hRe
      | ok re =>
          obtain ⟨next, hTurn⟩ : ∃ next,
              consider text best entry = .ok next := by
            simp only [consider, hCompile]
            split_ifs
            · exact ⟨_, rfl⟩
            · rcases best with _ | ⟨other, top⟩
              · exact ⟨_, rfl⟩
              · dsimp only
                split_ifs
                · exact ⟨_, rfl⟩
                · exact ⟨_, rfl⟩
          rw [hTurn]
          exact ih.trans (by simp)

/-- A list leads at one place only. -/
theorem leads_unique {url : Url} {before before' : List SecretEntry}
    {entry entry' : SecretEntry} {after after' : List SecretEntry}
    (hSame : before ++ entry :: after = before' ++ entry' :: after')
    (h : Leads url before entry after)
    (h' : Leads url before' entry' after') : entry = entry' := by
  -- of two leaders, the later must beat the earlier and must not
  have apart : ∀ {first second : SecretEntry} {x y z : List SecretEntry},
      Leads url x first (y ++ second :: z) →
        ¬Leads url (x ++ first :: y) second z := by
    intro first second x y z hFirst hSecond
    rcases Nat.lt_or_ge (literalPrefixLen first.target)
        (literalPrefixLen second.target) with hLess | hLeast
    · exact hFirst.first
        (Or.inr ⟨second, by simp, hSecond.fits, hLess⟩)
    · exact hSecond.first
        (Or.inl ⟨first, by simp, hFirst.fits, hLeast⟩)
  rcases List.append_eq_append_iff.mp hSame with
    ⟨middle, rfl, hTail⟩ | ⟨middle, rfl, hTail⟩
  · cases middle with
    | nil =>
        cases hTail
        rfl
    | cons other middle =>
        cases hTail
        exact absurd h' (apart h)
  · cases middle with
    | nil =>
        cases hTail
        rfl
    | cons other middle =>
        cases hTail
        exact absurd h (apart h')

/-- The entry at which the list leads is the one that is returned. -/
theorem matchSecret_eq_some_iff {url : Url} {entries : List SecretEntry}
    {entry : SecretEntry} :
    matchSecret url entries = .ok (some entry) ↔
      (∀ other ∈ entries, ∃ re, compileGlob other.target = .ok re) ∧
        ∃ before after, entries = before ++ entry :: after ∧
          Leads url before entry after := by
  have hFound : ∀ last, entries.foldlM (consider (targetString url)) none =
      .ok last → Found url entries last := fun last hLast =>
    found_foldlM (show Found url [] none by simp [Found]) hLast
  unfold matchSecret
  constructor
  · intro h
    cases hLoop : entries.foldlM (consider (targetString url)) none with
    | error error =>
        rw [hLoop] at h
        cases h
    | ok last =>
        rw [hLoop] at h
        refine ⟨foldlM_eq_ok_iff.mp ⟨last, hLoop⟩, ?_⟩
        rcases last with _ | ⟨leader, start⟩
        · cases h
        · cases h
          exact (hFound _ hLoop).2
  · rintro ⟨hCompile, before, after, rfl, hLeads⟩
    obtain ⟨last, hLoop⟩ := foldlM_eq_ok_iff.mpr hCompile
    rw [hLoop]
    rcases last with _ | ⟨leader, start⟩
    · exact absurd hLeads.fits (hFound _ hLoop entry (by simp))
    · obtain ⟨-, before', after', hSame, hLeads'⟩ := hFound _ hLoop
      rw [leads_unique hSame hLeads hLeads']
      rfl

/-- The units before the first `/`. -/
theorem eq_of_append_eq {x y host rest : JsString}
    (hx : unit '/' ∉ x) (hHost : unit '/' ∉ host)
    (hy : y = [] ∨ y.head? = some (unit '/'))
    (hRest : rest = [] ∨ rest.head? = some (unit '/'))
    (h : x ++ y = host ++ rest) : x = host := by
  have hCut : ∀ {a b : JsString}, unit '/' ∉ a →
      (b = [] ∨ b.head? = some (unit '/')) →
      (a ++ b).takeWhile (· ≠ unit '/') = a := by
    intro a b ha hb
    have hAll : ∀ u ∈ a, (u ≠ unit '/' : Bool) = true := by
      intro u hu
      rw [decide_eq_true_eq]
      rintro rfl
      exact ha hu
    rw [List.takeWhile_append_of_pos hAll]
    cases b with
    | nil => simp
    | cons u b =>
        have hu : u = unit '/' := by simpa using hb
        simp [hu]
  rw [← hCut hx hy, h, hCut hHost hRest]

end OpenApe.Ports.SecretsMatch
