import Mathlib.Data.List.Basic

/-!
# Glob patterns over an arbitrary alphabet

A pattern is a list of tokens: a literal symbol, exactly one symbol, or any
run of symbols.  The two wildcard tokens only range over the symbols a
predicate `ok` admits, because pattern engines rarely let a wildcard cross
every symbol: the dot of a regular expression stops at line breaks, a path
glob stops at separators.

`Matches` is the declarative meaning, `accepts` the structurally recursive
matcher, and `accepts_iff` joins them.
-/

namespace OpenApe.Verified.Glob

variable {α : Type*}

/-- One pattern token. -/
inductive Token (α : Type*) where
  | lit (a : α)
  | one
  | run
  deriving DecidableEq

/-- The text `s` is an instance of the pattern. -/
inductive Matches (ok : α → Bool) : List (Token α) → List α → Prop where
  | nil : Matches ok [] []
  | lit {p s} (a : α) (h : Matches ok p s) :
      Matches ok (.lit a :: p) (a :: s)
  | one {p s a} (ha : ok a = true) (h : Matches ok p s) :
      Matches ok (.one :: p) (a :: s)
  | skip {p s} (h : Matches ok p s) : Matches ok (.run :: p) s
  | step {p s a} (ha : ok a = true) (h : Matches ok (.run :: p) s) :
      Matches ok (.run :: p) (a :: s)

/-! ## The matcher -/

/-- Some suffix left after dropping admitted symbols satisfies `k`. -/
def someSuffix (ok : α → Bool) (k : List α → Bool) : List α → Bool
  | [] => k []
  | a :: s => k (a :: s) || (ok a && someSuffix ok k s)

/-- Backtracking matcher, structural in the pattern and then in the text. -/
def accepts [DecidableEq α] (ok : α → Bool) : List (Token α) → List α → Bool
  | [], s => s.isEmpty
  | .lit a :: p, s =>
      match s with
      | [] => false
      | b :: s => a == b && accepts ok p s
  | .one :: p, s =>
      match s with
      | [] => false
      | b :: s => ok b && accepts ok p s
  | .run :: p, s => someSuffix ok (accepts ok p) s

private theorem matches_run_of_someSuffix {ok : α → Bool}
    {p : List (Token α)} {k : List α → Bool}
    (hk : ∀ s, k s = true → Matches ok p s) (s : List α)
    (h : someSuffix ok k s = true) : Matches ok (.run :: p) s := by
  induction s with
  | nil => exact .skip (hk [] h)
  | cons a s ih =>
      simp only [someSuffix, Bool.or_eq_true, Bool.and_eq_true] at h
      rcases h with h | ⟨ha, h⟩
      · exact .skip (hk _ h)
      · exact .step ha (ih h)

private theorem someSuffix_of_matches_run {ok : α → Bool}
    {p : List (Token α)} {k : List α → Bool}
    (hk : ∀ s, Matches ok p s → k s = true) (s : List α)
    (h : Matches ok (.run :: p) s) : someSuffix ok k s = true := by
  induction s with
  | nil =>
      cases h with
      | skip h => exact hk [] h
  | cons a s ih =>
      simp only [someSuffix, Bool.or_eq_true, Bool.and_eq_true]
      cases h with
      | skip h => exact .inl (hk _ h)
      | step ha h => exact .inr ⟨ha, ih h⟩

/-- The matcher decides the declarative meaning. -/
theorem accepts_iff [DecidableEq α] (ok : α → Bool) (p : List (Token α)) :
    ∀ s, accepts ok p s = true ↔ Matches ok p s := by
  induction p with
  | nil =>
      intro s
      cases s with
      | nil => exact ⟨fun _ => .nil, fun _ => rfl⟩
      | cons a s =>
          refine ⟨fun h => ?_, fun h => ?_⟩
          · simp [accepts] at h
          · cases h
  | cons t p ih =>
      intro s
      cases t with
      | run =>
          exact ⟨matches_run_of_someSuffix (fun s => (ih s).mp) s,
            someSuffix_of_matches_run (fun s => (ih s).mpr) s⟩
      | lit a =>
          cases s with
          | nil =>
              refine ⟨fun h => ?_, fun h => ?_⟩
              · simp [accepts] at h
              · cases h
          | cons b s =>
              simp only [accepts, Bool.and_eq_true, beq_iff_eq]
              constructor
              · rintro ⟨rfl, h⟩
                exact .lit _ ((ih s).mp h)
              · intro h
                cases h with
                | lit _ h => exact ⟨rfl, (ih s).mpr h⟩
      | one =>
          cases s with
          | nil =>
              refine ⟨fun h => ?_, fun h => ?_⟩
              · simp [accepts] at h
              · cases h
          | cons b s =>
              simp only [accepts, Bool.and_eq_true]
              constructor
              · rintro ⟨hb, h⟩
                exact .one hb ((ih s).mp h)
              · intro h
                cases h with
                | one hb h => exact ⟨hb, (ih s).mpr h⟩

instance [DecidableEq α] (ok : α → Bool) (p : List (Token α)) (s : List α) :
    Decidable (Matches ok p s) :=
  decidable_of_iff _ (accepts_iff ok p s)

/-! ## Changing the admitted symbols -/

/-- A wildcard that admits more matches more. -/
theorem Matches.mono {ok ok' : α → Bool}
    (hOk : ∀ a, ok a = true → ok' a = true) {p : List (Token α)} {s : List α}
    (h : Matches ok p s) : Matches ok' p s := by
  induction h with
  | nil => exact .nil
  | lit a _ ih => exact .lit a ih
  | one ha _ ih => exact .one (hOk _ ha) ih
  | skip _ ih => exact .skip ih
  | step ha _ ih => exact .step (hOk _ ha) ih

/-- An instance of a run absorbs, at its front, every instance of a run. -/
private theorem matches_run_trans {ok : α → Bool} {p q : List (Token α)}
    (hpq : ∀ s, Matches ok q s → Matches ok (.run :: p) s) (s : List α)
    (h : Matches ok (.run :: q) s) : Matches ok (.run :: p) s := by
  induction s with
  | nil =>
      cases h with
      | skip h => exact hpq _ h
  | cons a s ih =>
      cases h with
      | skip h => exact hpq _ h
      | step ha h => exact .step ha (ih h)

/-! ## Patterns written as text -/

section Text

variable [DecidableEq α] (star : α)

/-- The pattern a text denotes when `star` stands for any run and every
other symbol for itself. -/
def tokens (text : List α) : List (Token α) :=
  text.map (fun a => if a = star then .run else .lit a)

/-- A pattern written as text matches that text: each star may stand for
the star symbol. -/
theorem matches_tokens_self {ok : α → Bool} (hstar : ok star = true)
    (text : List α) : Matches ok (tokens star text) text := by
  induction text with
  | nil => exact .nil
  | cons a text ih =>
      by_cases ha : a = star
      · simp only [tokens, List.map_cons, if_pos ha]
        exact .step (ha ▸ hstar) (.skip ih)
      · simp only [tokens, List.map_cons, if_neg ha]
        exact .lit a ih

/-- **Composition of globs**: an instance of an instance is an instance.
The middle text is read once as text and once as a pattern. -/
theorem Matches.trans {ok : α → Bool} {p : List (Token α)} {b : List α}
    (hab : Matches ok p b) :
    (∀ t ∈ p, t ≠ .one) → (∀ t ∈ p, t ≠ .lit star) →
    ∀ c, Matches ok (tokens star b) c → Matches ok p c := by
  -- the induction follows the derivation of the first match
  induction hab with
  | nil => intro _ _ c hc; exact hc
  | @lit p s a h ih =>
      intro hone hlit c hc
      have ha : a ≠ star := fun hEq => hlit (.lit a) (by simp) (by rw [hEq])
      simp only [tokens, List.map_cons, if_neg ha] at hc
      cases hc with
      | lit _ hc =>
          exact .lit a (ih (fun t ht => hone t (by simp [ht]))
            (fun t ht => hlit t (by simp [ht])) _ hc)
  | one ha h ih =>
      intro hone _ c _
      exact absurd rfl (hone .one (by simp))
  | skip h ih =>
      intro hone hlit c hc
      exact .skip (ih (fun t ht => hone t (by simp [ht]))
        (fun t ht => hlit t (by simp [ht])) c hc)
  | @step p s a ha h ih =>
      intro hone hlit c hc
      have ih' := ih hone hlit
      by_cases hstar : a = star
      · simp only [tokens, List.map_cons, if_pos hstar] at hc
        exact matches_run_trans ih' c hc
      · simp only [tokens, List.map_cons, if_neg hstar] at hc
        cases hc with
        | lit _ hc => exact .step ha (ih' _ hc)

/-- Text patterns compose. -/
theorem matches_tokens_trans {ok : α → Bool} {a b c : List α}
    (hab : Matches ok (tokens star a) b)
    (hbc : Matches ok (tokens star b) c) : Matches ok (tokens star a) c := by
  refine hab.trans star ?_ ?_ c hbc
  · intro t ht
    obtain ⟨x, _, rfl⟩ := List.mem_map.mp ht
    split <;> simp
  · intro t ht
    obtain ⟨x, _, rfl⟩ := List.mem_map.mp ht
    split
    · simp
    · next hne => simpa using hne

end Text

/-! ## Filling in the stars -/

/-- A run is any text of admitted symbols. -/
theorem matches_run_iff {ok : α → Bool} {p : List (Token α)} {s : List α} :
    Matches ok (.run :: p) s ↔
      ∃ run rest, s = run ++ rest ∧ (∀ a ∈ run, ok a = true) ∧
        Matches ok p rest := by
  constructor
  · intro h
    induction s with
    | nil =>
        cases h with
        | skip h => exact ⟨[], [], rfl, by simp, h⟩
    | cons a s ih =>
        cases h with
        | skip h => exact ⟨[], a :: s, rfl, by simp, h⟩
        | step ha h =>
            obtain ⟨run, rest, rfl, hRun, hRest⟩ := ih h
            exact ⟨a :: run, rest, rfl, by simpa [ha] using hRun, hRest⟩
  · rintro ⟨run, rest, rfl, hRun, hRest⟩
    induction run with
    | nil => exact .skip hRest
    | cons a run ih =>
        exact .step (hRun a (by simp))
          (ih (fun b hb => hRun b (by simp [hb])))

section Fill

variable [DecidableEq α] (star : α)

/-- The text with its stars replaced, in order, by `runs`; a star without a
run stands for nothing. -/
def fill : List α → List (List α) → List α
  | [], _ => []
  | a :: text, runs =>
      if a = star then runs.headD [] ++ fill text runs.tail
      else a :: fill text runs

theorem tokens_star (text : List α) :
    tokens star (star :: text) = .run :: tokens star text := by
  simp [tokens]

theorem tokens_lit {a : α} (ha : a ≠ star) (text : List α) :
    tokens star (a :: text) = .lit a :: tokens star text := by
  simp [tokens, ha]

/-- **A glob's instances are its fillings.** -/
theorem matches_tokens_iff_fill (ok : α → Bool) (text s : List α) :
    Matches ok (tokens star text) s ↔
      ∃ runs : List (List α), (∀ run ∈ runs, ∀ a ∈ run, ok a = true) ∧
        s = fill star text runs := by
  induction text generalizing s with
  | nil =>
      constructor
      · intro h
        cases h
        exact ⟨[], by simp, rfl⟩
      · rintro ⟨runs, _, rfl⟩
        exact .nil
  | cons a text ih =>
      by_cases ha : a = star
      · subst ha
        rw [tokens_star, matches_run_iff]
        constructor
        · rintro ⟨run, rest, rfl, hRun, hRest⟩
          obtain ⟨runs, hRuns, rfl⟩ := (ih rest).mp hRest
          exact ⟨run :: runs, by simpa using ⟨hRun, hRuns⟩, by simp [fill]⟩
        · rintro ⟨runs, hRuns, rfl⟩
          refine ⟨runs.headD [], fill a text runs.tail, by simp [fill], ?_,
            (ih _).mpr ⟨runs.tail,
              fun run h => hRuns run (List.mem_of_mem_tail h), rfl⟩⟩
          cases runs with
          | nil => simp
          | cons run runs => exact hRuns run (by simp)
      · rw [tokens_lit star ha]
        constructor
        · intro h
          cases h with
          | lit _ h =>
              obtain ⟨runs, hRuns, hFill⟩ := (ih _).mp h
              exact ⟨runs, hRuns, by simp [fill, ha, hFill]⟩
        · rintro ⟨runs, hRuns, rfl⟩
          have hCons : fill star (a :: text) runs =
              a :: fill star text runs := by simp [fill, ha]
          rw [hCons]
          exact .lit a ((ih _).mpr ⟨runs, hRuns, rfl⟩)

/-! ## Counting the symbols a star does not take -/

variable {star}

/-- What a pattern writes out is in each of its instances. -/
theorem Matches.countP_le {ok bad : α → Bool} (hStar : bad star = false)
    {text s : List α} (h : Matches ok (tokens star text) s) :
    text.countP bad ≤ s.countP bad := by
  induction text generalizing s with
  | nil => simp
  | cons a text ih =>
      by_cases ha : a = star
      · subst ha
        rw [tokens_star, matches_run_iff] at h
        obtain ⟨run, rest, rfl, _, hRest⟩ := h
        have := ih hRest
        simp only [List.countP_cons, hStar, List.countP_append]
        simp only [Bool.false_eq_true, if_false]
        omega
      · rw [tokens_lit star ha] at h
        cases h with
        | lit _ h =>
            have := ih h
            simp only [List.countP_cons]
            omega

/-- **An instance avoids a kind of symbol in its stars** exactly when it has
no more of them than the pattern writes out. -/
theorem matches_not_iff_countP_le {bad : α → Bool} (hStar : bad star = false)
    {text s : List α}
    (h : Matches (fun _ => true) (tokens star text) s) :
    Matches (fun a => !bad a) (tokens star text) s ↔
      s.countP bad ≤ text.countP bad := by
  induction text generalizing s with
  | nil =>
      cases h
      exact ⟨fun _ => Nat.le_refl _, fun _ => .nil⟩
  | cons a text ih =>
      by_cases ha : a = star
      · subst ha
        rw [tokens_star, matches_run_iff] at h ⊢
        constructor
        · rintro ⟨run, rest, rfl, hRun, hRest⟩
          have hNone : run.countP bad = 0 :=
            List.countP_eq_zero.mpr (by simpa using hRun)
          have hTail := (ih (hRest.mono (by simp))).mp hRest
          simp only [List.countP_append, List.countP_cons, hStar, hNone,
            Bool.false_eq_true, if_false]
          omega
        · intro hLe
          obtain ⟨run, rest, rfl, _, hRest⟩ := h
          have hTail := hRest.countP_le hStar
          simp only [List.countP_append, List.countP_cons, hStar,
            Bool.false_eq_true, if_false] at hLe
          have hNone : run.countP bad = 0 := by omega
          refine ⟨run, rest, rfl, ?_, (ih hRest).mpr (by omega)⟩
          simpa using List.countP_eq_zero.mp hNone
      · rw [tokens_lit star ha] at h ⊢
        cases h with
        | @lit _ s _ h =>
            have hLit : Matches (fun a => !bad a)
                (.lit a :: tokens star text) (a :: s) ↔
                Matches (fun a => !bad a) (tokens star text) s := by
              constructor
              · intro hMatch
                cases hMatch with
                | lit _ hMatch => exact hMatch
              · exact .lit a
            rw [hLit, ih h]
            simp only [List.countP_cons]
            omega

end Fill

end OpenApe.Verified.Glob
