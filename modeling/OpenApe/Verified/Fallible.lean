import Mathlib.Data.List.Forall2

/-!
# Computations that may throw

`Except` as the type of code that returns or throws: when a sequence of calls
returns, and what a loop that returned has done.
-/

namespace OpenApe.Verified.Fallible

variable {ε α β : Type}

theorem isOk_iff {e : Except ε α} : e.isOk = true ↔ ∃ a, e = .ok a := by
  cases e with
  | error error => simp [Except.isOk, Except.toBool]
  | ok a => simp [Except.isOk, Except.toBool]

@[simp] theorem isOk_ok (a : α) : (Except.ok a : Except ε α).isOk = true :=
  rfl

@[simp] theorem isOk_error (error : ε) :
    (Except.error error : Except ε α).isOk = false := rfl

@[simp] theorem isOk_throw (error : ε) :
    (throw error : Except ε α).isOk = false := rfl

@[simp] theorem isOk_pure (a : α) : (pure a : Except ε α).isOk = true := rfl

/-- A sequence returns when both parts do. -/
theorem isOk_bind {e : Except ε α} {f : α → Except ε β} :
    (e >>= f).isOk = true ↔ ∃ a, e = .ok a ∧ (f a).isOk = true := by
  cases e with
  | error error => simp [bind, Except.bind]
  | ok a => simp [bind, Except.bind]

/-- A sequence whose second part returns or throws whatever the first part's
result is. -/
theorem isOk_bind_const {e : Except ε α} {f : α → Except ε β} {p : Prop}
    (h : ∀ a, (f a).isOk = true ↔ p) :
    (e >>= f).isOk = true ↔ e.isOk = true ∧ p := by
  cases e with
  | error error => simp [bind, Except.bind]
  | ok a => simp [bind, Except.bind, h a]

theorem ok_bind (a : α) (f : α → Except ε β) :
    ((Except.ok a : Except ε α) >>= f) = f a := rfl

/-- What is done with a result cannot throw. -/
theorem isOk_bind_pure {e : Except ε α} {f : α → β} :
    (e >>= fun a => pure (f a)).isOk = e.isOk := by
  cases e <;> rfl

/-- What a sequence that returned has done. -/
theorem bind_eq_ok {e : Except ε α} {f : α → Except ε β} {b : β} :
    (e >>= f) = .ok b ↔ ∃ a, e = .ok a ∧ f a = .ok b := by
  cases e with
  | error error => simp [bind, Except.bind]
  | ok a => simp [bind, Except.bind]

theorem mapM_cons (f : α → Except ε β) (a : α) (as : List α) :
    (a :: as).mapM f = f a >>= fun b => as.mapM f >>= fun bs =>
      pure (b :: bs) := by
  rw [List.mapM_cons]

/-- A loop returns when it does for every item. -/
theorem isOk_mapM (f : α → Except ε β) (as : List α) :
    (as.mapM f).isOk = true ↔ ∀ a ∈ as, (f a).isOk = true := by
  induction as with
  | nil => simp [List.mapM_nil]
  | cons a as ih =>
      rw [mapM_cons, List.forall_mem_cons, ← ih, isOk_bind]
      simp only [isOk_bind_pure, isOk_iff]
      constructor
      · rintro ⟨b, hb, hRest⟩
        exact ⟨⟨b, hb⟩, hRest⟩
      · rintro ⟨⟨b, hb⟩, hRest⟩
        exact ⟨b, hb, hRest⟩

/-- The results of a loop that returned, item by item. -/
theorem mapM_eq_ok {f : α → Except ε β} {as : List α} {bs : List β} :
    as.mapM f = .ok bs ↔ List.Forall₂ (fun a b => f a = .ok b) as bs := by
  induction as generalizing bs with
  | nil =>
      rw [List.mapM_nil, List.forall₂_nil_left_iff]
      constructor
      · intro h
        exact (Except.ok.inj h).symm
      · rintro rfl
        rfl
  | cons a as ih =>
      rw [mapM_cons, bind_eq_ok]
      constructor
      · rintro ⟨b, hb, hRest⟩
        obtain ⟨bs', hbs, hEq⟩ := bind_eq_ok.mp hRest
        cases hEq
        exact .cons hb (ih.mp hbs)
      · intro h
        obtain ⟨b, bs', hb, hRest, rfl⟩ := List.forall₂_cons_left_iff.mp h
        exact ⟨b, hb, bind_eq_ok.mpr ⟨bs', ih.mpr hRest, rfl⟩⟩

/-- Every result of a loop is one of an item. -/
theorem exists_of_mem_mapM {f : α → Except ε β} {as : List α} {bs : List β}
    (h : as.mapM f = .ok bs) {b : β} (hb : b ∈ bs) :
    ∃ a ∈ as, f a = .ok b := by
  have hAll := mapM_eq_ok.mp h
  clear h
  induction hAll with
  | nil => cases hb
  | cons hFirst _ ih =>
      rcases List.mem_cons.mp hb with rfl | hRest
      · exact ⟨_, List.mem_cons_self, hFirst⟩
      · obtain ⟨a, ha, hEq⟩ := ih hRest
        exact ⟨a, List.mem_cons_of_mem _ ha, hEq⟩

/-- What a loop computes item by item, read through a function. -/
theorem map_of_mapM {γ : Type} {f : α → Except ε β} {as : List α}
    {bs : List β} (h : as.mapM f = .ok bs) {g : β → γ} {k : α → γ}
    (hf : ∀ a b, f a = .ok b → g b = k a) : bs.map g = as.map k := by
  have hAll := mapM_eq_ok.mp h
  clear h
  induction hAll with
  | nil => rfl
  | cons hFirst _ ih => rw [List.map_cons, List.map_cons, ih, hf _ _ hFirst]

/-- Every item of a loop that returned stands beside its result. -/
theorem exists_zip_of_mapM {f : α → Except ε β} {as : List α} {bs : List β}
    (h : as.mapM f = .ok bs) {a : α} (ha : a ∈ as) :
    ∃ b, f a = .ok b ∧ (a, b) ∈ as.zip bs := by
  have hAll := mapM_eq_ok.mp h
  clear h
  induction hAll with
  | nil => cases ha
  | @cons a' b' _ _ hFirst _ ih =>
      rcases List.mem_cons.mp ha with rfl | hRest
      · exact ⟨b', hFirst, List.mem_cons_self⟩
      · obtain ⟨b, hb, hMem⟩ := ih hRest
        exact ⟨b, hb, List.mem_cons_of_mem _ hMem⟩

/-- A loop of checks passes when every item does. -/
theorem isOk_forM (f : α → Except ε Unit) (as : List α) :
    (as.forM f).isOk = true ↔ ∀ a ∈ as, (f a).isOk = true := by
  change (forM as f).isOk = true ↔ _
  induction as with
  | nil => simp [List.forM_nil, isOk_pure]
  | cons a as ih =>
      rw [List.forM_cons, List.forall_mem_cons, ← ih, isOk_bind]
      constructor
      · rintro ⟨_, hFirst, hRest⟩
        exact ⟨isOk_iff.mpr ⟨_, hFirst⟩, hRest⟩
      · rintro ⟨hFirst, hRest⟩
        obtain ⟨_, hFirst⟩ := isOk_iff.mp hFirst
        exact ⟨_, hFirst, hRest⟩

/-- What a loop of checks that passed has checked. -/
theorem forM_eq_ok {f : α → Except ε Unit} {as : List α} {u : Unit} :
    as.forM f = .ok u ↔ ∀ a ∈ as, f a = .ok () := by
  have hOk : ∀ e : Except ε Unit, e.isOk = true ↔ e = .ok () := fun e => by
    cases e <;> simp
  rw [← hOk, isOk_forM]
  simp only [hOk]

end OpenApe.Verified.Fallible
