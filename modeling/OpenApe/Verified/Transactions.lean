import OpenApe.Verified.Fallible

/-!
# Transactions

`Action` is code over a store that returns or throws.  A throw alone undoes
nothing: what was written before it stays, unless the code stands in a
`transaction`, which puts the store back.  `Returns` describes the runs that
return, part by part; `Atomic` says of a whole call that it leaves the store
as it was when it throws.
-/

namespace OpenApe.Verified.Transactions

variable {σ ε α β ι : Type}

/-- Code over a store: what it returns or throws, and the store after it. -/
def Action (σ ε α : Type) := σ → Except ε α × σ

namespace Action

def bind (x : Action σ ε α) (f : α → Action σ ε β) : Action σ ε β := fun s =>
  match x s with
  | (.ok a, s') => f a s'
  | (.error e, s') => (.error e, s')

instance : Monad (Action σ ε) where
  pure a := fun s => (.ok a, s)
  bind := bind

/-- Reads the store; it may throw. -/
def query (f : σ → Except ε α) : Action σ ε α := fun s => (f s, s)

/-- A computation that does not touch the store. -/
def check (x : Except ε α) : Action σ ε α := query fun _ => x

/-- Writes the store. -/
def write (f : σ → σ) : Action σ ε Unit := fun s => (.ok (), f s)

/-- `BEGIN … COMMIT`, or `ROLLBACK` where the code throws. -/
def transaction (x : Action σ ε α) : Action σ ε α := fun s =>
  match x s with
  | (.ok a, s') => (.ok a, s')
  | (.error e, _) => (.error e, s)

/-- `for (const item of items) f(item)` -/
def each : List ι → (ι → Action σ ε Unit) → Action σ ε Unit
  | [], _ => pure ()
  | item :: items, f => f item >>= fun _ => each items f

end Action

open Action

/-! ## Runs that return -/

/-- The code returns `a` and leaves the store `s'` behind. -/
def Returns (x : Action σ ε α) (s : σ) (a : α) (s' : σ) : Prop :=
  x s = (.ok a, s')

@[simp] theorem returns_pure {a b : α} {s s' : σ} :
    Returns (pure a : Action σ ε α) s b s' ↔ b = a ∧ s' = s := by
  change (Except.ok a, s) = (.ok b, s') ↔ _
  rw [Prod.mk.injEq, Except.ok.injEq]
  exact and_congr eq_comm eq_comm

/-- A sequence returns when both parts do. -/
@[simp] theorem returns_bind {x : Action σ ε α} {f : α → Action σ ε β}
    {s s' : σ} {b : β} :
    Returns (x >>= f) s b s' ↔
      ∃ a s₁, Returns x s a s₁ ∧ Returns (f a) s₁ b s' := by
  change Action.bind x f s = _ ↔ _
  unfold Action.bind Returns
  cases hRun : x s with
  | mk result s₁ =>
      cases result with
      | error e => simp
      | ok a => simp

@[simp] theorem returns_query {f : σ → Except ε α} {s s' : σ} {a : α} :
    Returns (query f) s a s' ↔ f s = .ok a ∧ s' = s := by
  change (f s, s) = (.ok a, s') ↔ _
  rw [Prod.mk.injEq]
  exact and_congr Iff.rfl eq_comm

@[simp] theorem returns_check {x : Except ε α} {s s' : σ} {a : α} :
    Returns (check x : Action σ ε α) s a s' ↔ x = .ok a ∧ s' = s :=
  returns_query

@[simp] theorem returns_write {f : σ → σ} {s s' : σ} {u : Unit} :
    Returns (write f : Action σ ε Unit) s u s' ↔ s' = f s := by
  change (Except.ok (), f s) = (.ok u, s') ↔ _
  rw [Prod.mk.injEq]
  exact ⟨fun h => h.2.symm, fun h => ⟨rfl, h.symm⟩⟩

/-! A sequence that starts with a single step goes on from its store. -/

theorem returns_query_bind {f : σ → Except ε α} {g : α → Action σ ε β}
    {s s' : σ} {b : β} :
    Returns (query f >>= g) s b s' ↔
      ∃ a, f s = .ok a ∧ Returns (g a) s b s' := by
  simp only [returns_bind, returns_query]
  constructor
  · rintro ⟨a, _, ⟨hRead, rfl⟩, hRest⟩
    exact ⟨a, hRead, hRest⟩
  · rintro ⟨a, hRead, hRest⟩
    exact ⟨a, s, ⟨hRead, rfl⟩, hRest⟩

theorem returns_check_bind {x : Except ε α} {g : α → Action σ ε β}
    {s s' : σ} {b : β} :
    Returns (check x >>= g) s b s' ↔ ∃ a, x = .ok a ∧ Returns (g a) s b s' :=
  returns_query_bind

theorem returns_write_bind {f : σ → σ} {g : Unit → Action σ ε β}
    {s s' : σ} {b : β} :
    Returns (write f >>= g) s b s' ↔ Returns (g ()) (f s) b s' := by
  simp only [returns_bind, returns_write]
  constructor
  · rintro ⟨_, _, rfl, hRest⟩
    exact hRest
  · exact fun hRest => ⟨(), f s, rfl, hRest⟩

@[simp] theorem returns_transaction {x : Action σ ε α} {s s' : σ} {a : α} :
    Returns (transaction x) s a s' ↔ Returns x s a s' := by
  simp only [Returns, transaction]
  cases hRun : x s with
  | mk result s₁ =>
      cases result with
      | error e => simp
      | ok a => simp

/-- What every turn of a loop keeps, the loop keeps. -/
theorem returns_each {items : List ι} {f : ι → Action σ ε Unit} {s s' : σ}
    {u : Unit} (inv : σ → Prop) (h : Returns (each items f) s u s')
    (hStart : inv s)
    (hTurn : ∀ item ∈ items, ∀ s s', inv s → Returns (f item) s () s' →
      inv s') : inv s' := by
  induction items generalizing s with
  | nil => exact (returns_pure.mp h).2 ▸ hStart
  | cons item items ih =>
      obtain ⟨_, s₁, hFirst, hRest⟩ := returns_bind.mp h
      exact ih hRest (hTurn item List.mem_cons_self s s₁ hStart hFirst)
        (fun item' hMem => hTurn item' (List.mem_cons_of_mem item hMem))

/-- What a turn establishes, and the turns after it keep, holds of every item
after the loop. -/
theorem returns_each_all {items : List ι} {f : ι → Action σ ε Unit}
    {s s' : σ} {u : Unit} (inv : σ → Prop) (Q : ι → σ → Prop)
    (h : Returns (each items f) s u s') (hStart : inv s)
    (hTurn : ∀ item ∈ items, ∀ s s', inv s → Returns (f item) s () s' →
      inv s' ∧ Q item s' ∧ ∀ other ∈ items, Q other s → Q other s') :
    inv s' ∧ ∀ item ∈ items, Q item s' := by
  have hLoop : ∀ (turns : List ι) (s : σ), (∀ item ∈ turns, item ∈ items) →
      Returns (each turns f) s u s' → inv s →
      inv s' ∧ (∀ item ∈ turns, Q item s') ∧
        ∀ other ∈ items, Q other s → Q other s' := by
    intro turns
    induction turns with
    | nil =>
        intro s _ hRun hInv
        obtain ⟨-, rfl⟩ := returns_pure.mp hRun
        exact ⟨hInv, (fun _ hMem => nomatch hMem), fun _ _ hQ => hQ⟩
    | cons item turns ih =>
        intro s hItems hRun hInv
        obtain ⟨_, mid, hFirst, hRest⟩ := returns_bind.mp hRun
        have hItem := hItems item List.mem_cons_self
        obtain ⟨hMid, hQ, hKeep⟩ := hTurn item hItem s mid hInv hFirst
        obtain ⟨hEnd, hAll, hKeep'⟩ := ih mid
          (fun other hOther => hItems other (List.mem_cons_of_mem item hOther))
          hRest hMid
        refine ⟨hEnd, fun other hOther => ?_, fun other hOther hBefore =>
          hKeep' other hOther (hKeep other hOther hBefore)⟩
        cases List.mem_cons.mp hOther with
        | inl hSame => exact hSame ▸ hKeep' item hItem hQ
        | inr hLater => exact hAll other hLater
  obtain ⟨hInv, hAll, -⟩ := hLoop items s (fun _ hMem => hMem) h hStart
  exact ⟨hInv, hAll⟩

/-- A loop whose turns all return, given the items before them, returns. -/
theorem returns_each_grow {items : List ι} {f : ι → Action σ ε Unit}
    (inv : List ι → σ → Prop) {s : σ} (hStart : inv [] s)
    (hTurn : ∀ front item rest s, items = front ++ item :: rest →
      inv front s → ∃ s', Returns (f item) s () s' ∧ inv (front ++ [item]) s') :
    ∃ s', Returns (each items f) s () s' ∧ inv items s' := by
  have hLoop : ∀ (rest front : List ι) (s : σ), items = front ++ rest →
      inv front s → ∃ s', Returns (each rest f) s () s' ∧ inv items s' := by
    intro rest
    induction rest with
    | nil =>
        intro front s hItems hInv
        rw [List.append_nil] at hItems
        exact ⟨s, returns_pure.mpr ⟨rfl, rfl⟩, hItems ▸ hInv⟩
    | cons item rest ih =>
        intro front s hItems hInv
        obtain ⟨s₁, hFirst, hInv₁⟩ := hTurn front item rest s hItems hInv
        obtain ⟨s', hRest, hEnd⟩ := ih (front ++ [item]) s₁
          (by rw [hItems, List.append_assoc]; rfl) hInv₁
        exact ⟨s', returns_bind.mpr ⟨(), s₁, hFirst, hRest⟩, hEnd⟩
  exact hLoop items [] s rfl hStart

/-- A loop of writes writes one after the other. -/
theorem returns_each_write {items : List ι} {f : ι → σ → σ} {s s' : σ}
    {u : Unit}
    (h : Returns (each items fun item => (write (f item) : Action σ ε Unit))
      s u s') : s' = items.foldl (fun s item => f item s) s := by
  induction items generalizing s with
  | nil => exact (returns_pure.mp h).2
  | cons item items ih => exact ih (returns_write_bind.mp h)

/-! ## Calls that throw -/

/-- The code throws `e` and leaves the store `s'` behind. -/
def Throws (x : Action σ ε α) (s : σ) (e : ε) (s' : σ) : Prop :=
  x s = (.error e, s')

theorem throws_query {f : σ → Except ε α} {s : σ} {e : ε} (h : f s = .error e) :
    Throws (query f) s e s := by
  unfold Throws query
  rw [h]

theorem throws_check {x : Except ε α} {s : σ} {e : ε} (h : x = .error e) :
    Throws (check x) s e s :=
  throws_query h

/-- A sequence throws what its first part throws. -/
theorem Throws.bind {x : Action σ ε α} {s s' : σ} {e : ε} (h : Throws x s e s')
    (f : α → Action σ ε β) : Throws (x >>= f) s e s' := by
  unfold Throws at h
  change Action.bind x f s = _
  unfold Action.bind
  rw [h]

/-- A sequence whose first part returns throws what the second throws. -/
theorem Returns.bind_throws {x : Action σ ε α} {f : α → Action σ ε β}
    {s s₁ s' : σ} {a : α} {e : ε} (h : Returns x s a s₁)
    (hRest : Throws (f a) s₁ e s') : Throws (x >>= f) s e s' := by
  unfold Returns at h
  change Action.bind x f s = _
  unfold Action.bind
  rw [h]
  exact hRest

/-- A transaction that throws leaves the store as it was. -/
theorem Throws.transaction {x : Action σ ε α} {s s' : σ} {e : ε}
    (h : Throws x s e s') : Throws (transaction x) s e s := by
  unfold Throws at h
  unfold Throws Action.transaction
  rw [h]


/-- A call that throws leaves the store as it was. -/
def Atomic (x : Action σ ε α) : Prop :=
  ∀ s e s', x s = (.error e, s') → s' = s

/-- Code that does not throw. -/
def Total (x : Action σ ε α) : Prop := ∀ s, ∃ a s', Returns x s a s'

theorem total_pure (a : α) : Total (pure a : Action σ ε α) :=
  fun s => ⟨a, s, rfl⟩

theorem total_write (f : σ → σ) : Total (write f : Action σ ε Unit) :=
  fun s => ⟨(), f s, rfl⟩

theorem total_bind {x : Action σ ε α} {f : α → Action σ ε β} (hx : Total x)
    (hf : ∀ a, Total (f a)) : Total (x >>= f) := by
  intro s
  obtain ⟨a, s₁, hFirst⟩ := hx s
  obtain ⟨b, s', hRest⟩ := hf a s₁
  exact ⟨b, s', returns_bind.mpr ⟨a, s₁, hFirst, hRest⟩⟩

theorem Total.atomic {x : Action σ ε α} (h : Total x) : Atomic x := by
  intro s e s' hThrow
  obtain ⟨a, s₁, hReturn⟩ := h s
  rw [Returns, hThrow] at hReturn
  cases hReturn

theorem atomic_transaction (x : Action σ ε α) : Atomic (transaction x) := by
  intro s e s' hThrow
  unfold transaction at hThrow
  cases hRun : x s with
  | mk result s₁ =>
      rw [hRun] at hThrow
      cases result with
      | error e' => exact (Prod.mk.inj hThrow).2.symm
      | ok a => cases hThrow

/-- Reading first leaves a call atomic. -/
theorem atomic_query_bind {f : σ → Except ε α} {g : α → Action σ ε β}
    (hg : ∀ a, Atomic (g a)) : Atomic (query f >>= g) := by
  intro s e s' hThrow
  change Action.bind (query f) g s = _ at hThrow
  unfold Action.bind query at hThrow
  cases hRead : f s with
  | error e' =>
      rw [hRead] at hThrow
      exact (Prod.mk.inj hThrow).2.symm
  | ok a =>
      rw [hRead] at hThrow
      exact hg a s e s' hThrow

theorem atomic_check_bind {x : Except ε α} {g : α → Action σ ε β}
    (hg : ∀ a, Atomic (g a)) : Atomic (check x >>= g) :=
  atomic_query_bind hg

/-- The outcome of an atomic call: it returned, or it threw and changed
nothing. -/
theorem Atomic.outcome {x : Action σ ε α} (h : Atomic x) (s : σ) :
    (∃ a s', Returns x s a s' ∧ x s = (.ok a, s')) ∨
      ∃ e, x s = (.error e, s) := by
  cases hRun : x s with
  | mk result s' =>
      cases result with
      | ok a => exact .inl ⟨a, s', hRun, rfl⟩
      | error e => exact .inr ⟨e, by rw [h s e s' hRun]⟩

/-- What is made of the answer throws nothing. -/
theorem Atomic.map {x : Action σ ε α} (h : Atomic x) (f : α → β) :
    Atomic (x >>= fun a => pure (f a)) := by
  intro s e s' hThrow
  change Action.bind x _ s = _ at hThrow
  rcases h.outcome s with ⟨a, s₁, -, hRun⟩ | ⟨e', hRun⟩ <;>
    rw [Action.bind, hRun] at hThrow
  · cases hThrow
  · exact (Prod.mk.inj hThrow).2.symm

end OpenApe.Verified.Transactions
