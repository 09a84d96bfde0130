import Mathlib.Data.Bool.AllAny
import OpenApe.Ports.ImportedLock

/-!
# Node's lookup of nested packages

A package is named by its own name and the names of the packages around it,
the innermost first; the root has no name.  Node looks a dependency up in the
package itself, then in the one around it, and so on to the root.  The loop
of `resolve` does so on paths: it cuts a path at its last `/node_modules/`,
which in the path of a package is where its name begins.
-/

namespace OpenApe.Ports.NestedPackages

open Verified.JsText
open LockEntries ImportedLock

/-! ## The last occurrence of a word -/

theorem lastIndexOf_eq_none {word text : JsString} (hWord : word ≠ []) :
    lastIndexOf word text = none ↔ ¬word <:+: text := by
  induction text with
  | nil =>
      rw [lastIndexOf, List.infix_nil]
      exact iff_of_true rfl hWord
  | cons u rest ih =>
      rw [lastIndexOf, List.infix_cons_iff, ← List.isPrefixOf_iff_prefix]
      cases hRest : lastIndexOf word rest with
      | some i =>
          have hInfix : word <:+: rest := by
            by_contra hNot
            rw [ih.mpr hNot] at hRest
            cases hRest
          simp [hInfix]
      | none =>
          have hNot := ih.mp hRest
          by_cases hPrefix : word.isPrefixOf (u :: rest) = true
          · simp [hPrefix]
          · simp [hPrefix, hNot]

/-- What stands before the last occurrence moves it. -/
theorem lastIndexOf_append {word text : JsString} {i : Nat}
    (h : lastIndexOf word text = some i) (front : JsString) :
    lastIndexOf word (front ++ text) = some (front.length + i) := by
  induction front with
  | nil => rw [List.nil_append, h, List.length_nil, Nat.zero_add]
  | cons u front ih =>
      rw [List.cons_append, lastIndexOf, ih]
      show some (front.length + i + 1) = _
      rw [List.length_cons]
      congr 1
      omega

theorem lastIndexOf_lt {word text : JsString} {i : Nat}
    (h : lastIndexOf word text = some i) : i < text.length := by
  induction text generalizing i with
  | nil => cases h
  | cons u rest ih =>
      rw [lastIndexOf] at h
      rw [List.length_cons]
      cases hRest : lastIndexOf word rest with
      | some j =>
          rw [hRest] at h
          have hj := ih hRest
          have hi : j + 1 = i := Option.some.inj h
          omega
      | none =>
          rw [hRest] at h
          dsimp only at h
          split at h
          · have hi : 0 = i := Option.some.inj h
            omega
          · cases h

/-- The word that a text begins with is found there when it does not occur
later. -/
theorem lastIndexOf_zero {u : CodeUnit} {word tail : JsString}
    (h : ¬(u :: word) <:+: word ++ tail) :
    lastIndexOf (u :: word) (u :: word ++ tail) = some 0 := by
  have hLater := (lastIndexOf_eq_none (List.cons_ne_nil u word)).mpr h
  rw [List.cons_append, lastIndexOf, hLater]
  have hPrefix : (u :: word).isPrefixOf (u :: (word ++ tail)) = true :=
    List.isPrefixOf_iff_prefix.mpr (List.prefix_append (u :: word) tail)
  exact if_pos hPrefix

/-! ## Cutting a path -/

/-- The path around a package is shorter. -/
theorem length_enclosing_lt {path : JsString} (h : path ≠ []) :
    (enclosing path).length < path.length := by
  unfold enclosing
  split
  · exact List.length_pos_of_ne_nil h
  · rename_i boundary hLast
    have hBound := lastIndexOf_lt hLast
    rw [List.length_take]
    omega

theorem count_slash_plain {name : JsString} (h : isPlainName name = true) :
    name.count (unit '/') = 0 := by
  rw [List.count_eq_zero]
  intro hMem
  cases name with
  | nil => cases hMem
  | cons u rest =>
      rw [isPlainName, Bool.and_eq_true, List.all_eq_true] at h
      rcases List.mem_cons.mp hMem with hHead | hRest
      · rw [← hHead] at h
        exact absurd h.1 (by decide)
      · exact absurd (h.2 _ hRest) (by decide)

/-- A package name is plain, or `@scope/name`. -/
theorem packageName_cases {name : JsString} (h : isPackageName name = true) :
    isPlainName name = true ∨ ∃ scope plain,
      name = unit '@' :: scope ++ unit '/' :: plain ∧
        isPlainName scope = true ∧ isPlainName plain = true := by
  unfold isPackageName at h
  rw [Bool.and_eq_true, Bool.and_eq_true] at h
  have hForm := h.1.2
  cases name with
  | nil => cases hForm
  | cons u rest =>
      dsimp only at hForm
      by_cases hAt : u = unit '@'
      · rw [if_pos hAt, Bool.and_eq_true] at hForm
        obtain ⟨hScope, hPlain⟩ := hForm
        have hSplit := List.takeWhile_append_dropWhile
          (p := (· != unit '/')) (l := rest)
        cases hDrop : rest.dropWhile (· != unit '/') with
        | nil =>
            rw [hDrop] at hPlain
            cases hPlain
        | cons v plain =>
            rw [hDrop] at hPlain hSplit
            have hSlash := List.head?_dropWhile_not (· != unit '/') rest
            rw [hDrop] at hSlash
            have hv : v = unit '/' := by simpa using hSlash
            refine .inr ⟨_, plain, ?_, hScope, hPlain⟩
            rw [hv] at hSplit
            rw [hAt, List.cons_append, hSplit]
      · rw [if_neg hAt] at hForm
        exact .inl hForm

theorem count_slash_packageName {name : JsString}
    (h : isPackageName name = true) : name.count (unit '/') ≤ 1 := by
  rcases packageName_cases h with hPlain | ⟨scope, plain, rfl, hs, hp⟩
  · rw [count_slash_plain hPlain]
    omega
  · rw [List.count_append, List.count_cons_of_ne (by decide),
      List.count_cons_self, count_slash_plain hs, count_slash_plain hp]

/-- No package is called `node_modules/…`. -/
theorem not_nodeModules_prefix {name : JsString}
    (h : isPackageName name = true) : ¬nodeModules <+: name := by
  intro hPrefix
  rcases packageName_cases h with hPlain | ⟨scope, plain, rfl, -, -⟩
  · have hCount := hPrefix.sublist.count_le (unit '/')
    rw [count_slash_plain hPlain] at hCount
    exact absurd hCount (by decide)
  · obtain ⟨rest, hEq⟩ := hPrefix
    have hHead := congrArg List.head? hEq
    exact absurd hHead (by
      rw [List.cons_append, List.head?_cons, nodeModules]
      simp [js, utf16, unit])

/-- In `node_modules/name` there is no `/node_modules/`. -/
theorem not_nestedModules_infix {name : JsString}
    (h : isPackageName name = true) :
    ¬nestedModules <:+: nodeModules ++ name := by
  have hShort : ¬nestedModules <:+: name := fun hInfix => by
    have hCount := hInfix.sublist.count_le (unit '/')
    have hBound := count_slash_packageName h
    have hTwo : nestedModules.count (unit '/') = 2 := by decide
    omega
  have hPrefix := not_nodeModules_prefix h
  have hNested : nestedModules = unit '/' :: nodeModules := by decide
  have hModules : nodeModules = js "node_modules" ++ [unit '/'] := by decide
  have hLetters : ∀ (front : JsString), (∀ u ∈ front, u ≠ unit '/') →
      ∀ text, nestedModules <:+: front ++ text → nestedModules <:+: text := by
    intro front hFront text hInfix
    induction front with
    | nil => exact hInfix
    | cons u front ih =>
        rw [List.cons_append, List.infix_cons_iff] at hInfix
        rcases hInfix with hHead | hRest
        · rw [hNested, List.cons_prefix_cons] at hHead
          exact absurd hHead.1.symm (hFront u List.mem_cons_self)
        · exact ih (fun v hv => hFront v (List.mem_cons_of_mem u hv)) hRest
  intro hInfix
  rw [hModules, List.append_assoc] at hInfix
  have hRest := hLetters (js "node_modules")
    (List.all_iff_forall_prop.mp (by decide)) _ hInfix
  rw [List.singleton_append, List.infix_cons_iff, hNested,
    List.cons_prefix_cons, ← hNested] at hRest
  rcases hRest with hHead | hTail
  · exact hPrefix hHead.2
  · exact hShort hTail

/-! ## Packages inside packages -/

/-- A package and those around it, the innermost first. -/
abbrev Location := List JsString

/-- Names that packages can have. -/
def Valid (location : Location) : Prop :=
  ∀ name ∈ location, isPackageName name = true

def pathOf : Location → JsString
  | [] => []
  | name :: around => candidate (pathOf around) name

theorem pathOf_cons_ne_nil (name : JsString) (around : Location) :
    pathOf (name :: around) ≠ [] := by
  intro h
  have hLength := congrArg List.length h
  rw [pathOf, candidate, List.length_append, List.length_append] at hLength
  have hModules : nodeModules.length = 13 := by decide
  simp only [List.length_nil] at hLength
  omega

/-- Cutting the path of a package gives the path of the one around it. -/
theorem enclosing_pathOf {name : JsString} (h : isPackageName name = true)
    (around : Location) :
    enclosing (pathOf (name :: around)) = pathOf around := by
  have hNot := not_nestedModules_infix h
  have hNested : nestedModules = unit '/' :: nodeModules := by decide
  rw [pathOf, candidate]
  by_cases hRoot : pathOf around = []
  · have hNone : lastIndexOf nestedModules (nodeModules ++ name) = none :=
      (lastIndexOf_eq_none (by decide)).mpr hNot
    rw [if_pos (List.isEmpty_iff.mpr hRoot), List.nil_append, enclosing, hNone,
      hRoot]
  · have hEmpty : ¬(pathOf around).isEmpty = true := fun hIs =>
      hRoot (List.isEmpty_iff.mp hIs)
    rw [hNested] at hNot
    have hLast := lastIndexOf_append (lastIndexOf_zero hNot) (pathOf around)
    have hPath : pathOf around ++ [unit '/'] ++ nodeModules ++ name =
        pathOf around ++ (unit '/' :: nodeModules ++ name) := by
      rw [List.append_assoc, List.append_assoc]
      rfl
    rw [if_neg hEmpty, hPath, enclosing, hNested, hLast]
    show (pathOf around ++ _).take ((pathOf around).length + 0) = _
    rw [Nat.add_zero, List.take_left]

/-! ## The lookup -/

/-- Node's lookup: the package of this name in the nearest package. -/
def nearest (isEntry : Location → Bool) (name : JsString) :
    Location → Option Location
  | [] => if isEntry [name] then some [name] else none
  | inner :: around =>
      if isEntry (name :: inner :: around) then some (name :: inner :: around)
      else nearest isEntry name around

/-- Whether a package is an entry of the lock. -/
def isEntry (entries : Entries) (location : Location) : Bool :=
  (entries.find? (pathOf location)).isSome

/-- The loop takes turns enough: it goes on exactly as its text says. -/
theorem resolve_eq (entries : Entries) (path name : JsString) :
    resolve entries path name =
      match entries.find? (candidate path name) with
      | some found => some found
      | none =>
          if path.isEmpty then none
          else resolve entries (enclosing path) name := by
  have hTurns : ∀ n m path, path.length < n → path.length < m →
      resolveFrom entries name n path = resolveFrom entries name m path := by
    intro n
    induction n with
    | zero => intro m path hn; omega
    | succ n ih =>
        intro m path hn hm
        cases m with
        | zero => omega
        | succ m =>
            rw [resolveFrom, resolveFrom]
            split
            · rfl
            · by_cases hEmpty : path.isEmpty = true
              · rw [if_pos hEmpty, if_pos hEmpty]
              · rw [if_neg hEmpty, if_neg hEmpty]
                have hShorter := length_enclosing_lt
                  (fun hNil => hEmpty (List.isEmpty_iff.mpr hNil))
                exact ih m (enclosing path) (by omega) (by omega)
  rw [resolve, resolveFrom]
  cases entries.find? (candidate path name) with
  | some found => rfl
  | none =>
      dsimp only
      by_cases hEmpty : path.isEmpty = true
      · rw [if_pos hEmpty, if_pos hEmpty]
      · rw [if_neg hEmpty, if_neg hEmpty, resolve]
        have hShorter := length_enclosing_lt
          (fun hNil => hEmpty (List.isEmpty_iff.mpr hNil))
        exact hTurns _ _ (enclosing path) hShorter (by omega)

/-- `resolve` finds the entry of the nearest package. -/
theorem resolve_pathOf (entries : Entries) (name : JsString)
    {location : Location} (h : Valid location) :
    resolve entries (pathOf location) name =
      (nearest (isEntry entries) name location).bind fun target =>
        entries.find? (pathOf target) := by
  induction location with
  | nil =>
      rw [resolve_eq, nearest, isEntry]
      show (match entries.find? (pathOf [name]) with
        | some found => some found
        | none => none) = _
      cases hFound : entries.find? (pathOf [name]) with
      | none => rfl
      | some found =>
          rw [if_pos Option.isSome_some]
          exact hFound.symm
  | cons inner around ih =>
      have hAround : Valid around := fun n hn =>
        h n (List.mem_cons_of_mem inner hn)
      have hEmpty : ¬(pathOf (inner :: around)).isEmpty = true := fun hIs =>
        pathOf_cons_ne_nil inner around (List.isEmpty_iff.mp hIs)
      rw [resolve_eq, nearest, isEntry, if_neg hEmpty,
        enclosing_pathOf (h inner List.mem_cons_self), ih hAround]
      show (match entries.find? (pathOf (name :: inner :: around)) with
        | some found => some found
        | none => _) = _
      cases hFound : entries.find? (pathOf (name :: inner :: around)) with
      | none => rfl
      | some found =>
          rw [if_pos Option.isSome_some]
          exact hFound.symm

/-- What is found is the package of that name in a package around the place
of the lookup. -/
theorem nearest_suffix {isEntry : Location → Bool} {name : JsString}
    {location target : Location}
    (h : nearest isEntry name location = some target) :
    isEntry target = true ∧
      ∃ around, target = name :: around ∧ around <:+ location := by
  induction location with
  | nil =>
      rw [nearest] at h
      split at h
      · rename_i hEntry
        cases h
        exact ⟨hEntry, [], rfl, List.suffix_refl []⟩
      · cases h
  | cons inner around ih =>
      rw [nearest] at h
      split at h
      · rename_i hEntry
        cases h
        exact ⟨hEntry, _, rfl, List.suffix_refl _⟩
      · obtain ⟨hEntry, outer, hTarget, hSuffix⟩ := ih h
        exact ⟨hEntry, outer, hTarget,
          hSuffix.trans (List.suffix_cons inner around)⟩

end OpenApe.Ports.NestedPackages
