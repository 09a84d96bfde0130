import Mathlib.Data.List.Nodup
import Mathlib.Order.Nat
import Mathlib.Tactic.Tauto

/-!
# A worklist walk over optional and required edges

A walk pops a node, follows its edges and puts their targets on the pending
list.  A node is put there when it is first visited, and once more when it
turns out to be required after it was visited as an optional one.

When nothing is pending any more, the visited nodes are those that edges
reach, and the required ones those that required edges alone reach, whatever
the order of the edges was.
-/

namespace OpenApe.Verified.Worklist

variable {ν : Type}

structure Edge (ν : Type) where
  target : ν
  optional : Bool
  deriving DecidableEq

/-- The nodes that edges reach from a start. -/
inductive Reaches (edges : ν → List (Edge ν)) (start : ν) : ν → Prop
  | first {e : Edge ν} (hEdge : e ∈ edges start) :
      Reaches edges start e.target
  | step {v : ν} {e : Edge ν} (hNode : Reaches edges start v)
      (hEdge : e ∈ edges v) : Reaches edges start e.target

/-- The nodes that edges reach which are not optional. -/
inductive Requires (edges : ν → List (Edge ν)) (start : ν) : ν → Prop
  | first {e : Edge ν} (hEdge : e ∈ edges start)
      (hNeeded : e.optional = false) : Requires edges start e.target
  | step {v : ν} {e : Edge ν} (hNode : Requires edges start v)
      (hEdge : e ∈ edges v) (hNeeded : e.optional = false) :
      Requires edges start e.target

/-- What is required is reached. -/
theorem Requires.reaches {edges : ν → List (Edge ν)} {start v : ν}
    (h : Requires edges start v) : Reaches edges start v := by
  induction h with
  | first hEdge _ => exact .first hEdge
  | step _ hEdge _ ih => exact .step ih hEdge

/-! ## Renaming nodes -/

section Renaming

variable {μ : Type} {f : ν → μ} {P : ν → Prop} {edges : ν → List (Edge ν)}
  {edges' : μ → List (Edge μ)} {start : ν}

/-- The edge between the renamed nodes. -/
def Edge.map (f : ν → μ) (e : Edge ν) : Edge μ := ⟨f e.target, e.optional⟩

/-- A property that edges carry on holds of all that is reached. -/
theorem Reaches.closed (hStart : P start)
    (hClosed : ∀ v, P v → ∀ e ∈ edges v, P e.target) {v : ν}
    (h : Reaches edges start v) : P v := by
  induction h with
  | first hEdge => exact hClosed start hStart _ hEdge
  | step _ hEdge ih => exact hClosed _ ih _ hEdge

/-- Renamed nodes are reached along renamed edges. -/
theorem reaches_map_iff (hStart : P start)
    (hClosed : ∀ v, P v → ∀ e ∈ edges v, P e.target)
    (hEdges : ∀ v, P v → edges' (f v) = (edges v).map (Edge.map f)) (y : μ) :
    Reaches edges' (f start) y ↔ ∃ x, f x = y ∧ Reaches edges start x := by
  constructor
  · intro h
    induction h with
    | first hEdge =>
        rw [hEdges start hStart] at hEdge
        obtain ⟨e, he, rfl⟩ := List.mem_map.mp hEdge
        exact ⟨e.target, rfl, .first he⟩
    | step _ hEdge ih =>
        obtain ⟨x, rfl, hReaches⟩ := ih
        rw [hEdges x (hReaches.closed hStart hClosed)] at hEdge
        obtain ⟨e, he, rfl⟩ := List.mem_map.mp hEdge
        exact ⟨e.target, rfl, .step hReaches he⟩
  · rintro ⟨x, rfl, h⟩
    induction h with
    | @first e hEdge =>
        have hMem : e.map f ∈ edges' (f start) := by
          rw [hEdges start hStart]
          exact List.mem_map_of_mem hEdge
        exact .first hMem
    | @step v e hReaches hEdge ih =>
        have hMem : e.map f ∈ edges' (f v) := by
          rw [hEdges v (hReaches.closed hStart hClosed)]
          exact List.mem_map_of_mem hEdge
        exact .step ih hMem

/-- Renamed nodes are required along renamed edges. -/
theorem requires_map_iff (hStart : P start)
    (hClosed : ∀ v, P v → ∀ e ∈ edges v, P e.target)
    (hEdges : ∀ v, P v → edges' (f v) = (edges v).map (Edge.map f)) (y : μ) :
    Requires edges' (f start) y ↔ ∃ x, f x = y ∧ Requires edges start x := by
  constructor
  · intro h
    induction h with
    | first hEdge hNeeded =>
        rw [hEdges start hStart] at hEdge
        obtain ⟨e, he, rfl⟩ := List.mem_map.mp hEdge
        exact ⟨e.target, rfl, .first he hNeeded⟩
    | step _ hEdge hNeeded ih =>
        obtain ⟨x, rfl, hRequires⟩ := ih
        rw [hEdges x (hRequires.reaches.closed hStart hClosed)] at hEdge
        obtain ⟨e, he, rfl⟩ := List.mem_map.mp hEdge
        exact ⟨e.target, rfl, .step hRequires he hNeeded⟩
  · rintro ⟨x, rfl, h⟩
    induction h with
    | @first e hEdge hNeeded =>
        have hMem : e.map f ∈ edges' (f start) := by
          rw [hEdges start hStart]
          exact List.mem_map_of_mem hEdge
        exact .first hMem hNeeded
    | @step v e hRequires hEdge hNeeded ih =>
        have hMem : e.map f ∈ edges' (f v) := by
          rw [hEdges v (hRequires.reaches.closed hStart hClosed)]
          exact List.mem_map_of_mem hEdge
        exact .step ih hMem hNeeded

end Renaming

/-! ## The state of a walk and its invariant -/

/-- The state of a walk.  The last pushed node is the first of the pending
ones; its flag says whether it is pushed as a required one. -/
structure Walk (ν : Type) where
  visited : List ν
  required : List ν
  pending : List (ν × Bool)

/-- What holds while nodes are pending.  A node is expanded, or it still
waits; a required one waits as a required one. -/
structure Invariant (edges : ν → List (Edge ν)) (start : ν) (w : Walk ν) :
    Prop where
  visited : ∀ v ∈ w.visited, Reaches edges start v
  required : ∀ v ∈ w.required, v ∈ w.visited ∧ Requires edges start v
  pending : ∀ p ∈ w.pending, (p.1 = start ∨ p.1 ∈ w.visited) ∧
    (p.2 = true → p.1 = start ∨ p.1 ∈ w.required)
  reached : ∀ v, v = start ∨ v ∈ w.visited → (∃ m, (v, m) ∈ w.pending) ∨
    ∀ e ∈ edges v, e.target ∈ w.visited
  needed : ∀ v, v = start ∨ v ∈ w.required → (v, true) ∈ w.pending ∨
    ∀ e ∈ edges v, e.optional = false → e.target ∈ w.required

variable {edges : ν → List (Edge ν)} {start : ν}

/-- A walk begins at the start. -/
theorem invariant_start : Invariant edges start ⟨[], [], [(start, true)]⟩ := by
  refine ⟨fun v h => (by cases h), fun v h => (by cases h), fun p hp => ?_,
    fun v hv => .inl ?_, fun v hv => .inl ?_⟩
  · rw [List.mem_singleton.mp hp]
    exact ⟨.inl rfl, fun _ => .inl rfl⟩
  · rcases hv with rfl | hMem
    · exact ⟨true, List.mem_singleton_self _⟩
    · cases hMem
  · rcases hv with rfl | hMem
    · exact List.mem_singleton_self _
    · cases hMem

/-- A finished walk has visited exactly what edges reach. -/
theorem Invariant.visited_iff {w : Walk ν} (h : Invariant edges start w)
    (hDone : w.pending = []) (v : ν) :
    v ∈ w.visited ↔ Reaches edges start v := by
  have hClosed : ∀ x, x = start ∨ x ∈ w.visited →
      ∀ e ∈ edges x, e.target ∈ w.visited := by
    intro x hx
    rcases h.reached x hx with ⟨m, hm⟩ | hAll
    · rw [hDone] at hm
      cases hm
    · exact hAll
  constructor
  · exact h.visited v
  · intro hReaches
    induction hReaches with
    | first hEdge => exact hClosed start (.inl rfl) _ hEdge
    | step _ hEdge ih => exact hClosed _ (.inr ih) _ hEdge

/-- What a finished walk calls required is exactly what required edges
reach. -/
theorem Invariant.required_iff {w : Walk ν} (h : Invariant edges start w)
    (hDone : w.pending = []) (v : ν) :
    v ∈ w.required ↔ Requires edges start v := by
  have hClosed : ∀ x, x = start ∨ x ∈ w.required →
      ∀ e ∈ edges x, e.optional = false → e.target ∈ w.required := by
    intro x hx
    rcases h.needed x hx with hm | hAll
    · rw [hDone] at hm
      cases hm
    · exact hAll
  constructor
  · exact fun hMem => (h.required v hMem).2
  · intro hRequires
    induction hRequires with
    | first hEdge hNeeded => exact hClosed start (.inl rfl) _ hEdge hNeeded
    | step _ hEdge hNeeded ih => exact hClosed _ (.inr ih) _ hEdge hNeeded

/-! ## Sets in insertion order -/

variable [DecidableEq ν]

/-- Adds to a set that is kept in insertion order. -/
def add (set : List ν) (v : ν) : List ν :=
  if v ∈ set then set else set ++ [v]

@[simp] theorem mem_add {set : List ν} {v x : ν} :
    x ∈ add set v ↔ x ∈ set ∨ x = v := by
  unfold add
  by_cases h : v ∈ set
  · rw [if_pos h]
    constructor
    · exact Or.inl
    · rintro (hMem | rfl)
      · exact hMem
      · exact h
  · rw [if_neg h, List.mem_append, List.mem_singleton]

theorem nodup_add {set : List ν} (h : set.Nodup) (v : ν) :
    (add set v).Nodup := by
  unfold add
  by_cases hMem : v ∈ set
  · rw [if_pos hMem]
    exact h
  · rw [if_neg hMem]
    exact h.append (List.nodup_singleton v)
      (List.disjoint_singleton.mpr hMem)

theorem length_add_of_mem {set : List ν} {v : ν} (h : v ∈ set) :
    (add set v).length = set.length := by
  rw [add, if_pos h]

theorem length_add_of_notMem {set : List ν} {v : ν} (h : v ∉ set) :
    (add set v).length = set.length + 1 := by
  rw [add, if_neg h, List.length_append, List.length_singleton]

theorem length_le_add (set : List ν) (v : ν) :
    set.length ≤ (add set v).length := by
  by_cases h : v ∈ set
  · exact (length_add_of_mem h).ge
  · rw [length_add_of_notMem h]
    omega

/-! ## Following edges -/

/-- Visits a target, unless it was visited before and nothing is new. -/
def Walk.mark (w : Walk ν) (needed : Bool) (target : ν) : Walk ν :=
  if target ∈ w.visited ∧ (needed = false ∨ target ∈ w.required) then w
  else
    { visited := add w.visited target
      required := if needed then add w.required target else w.required
      pending := (target, needed) :: w.pending }

/-- Follows the edges of a node, which is itself required or not. -/
def Walk.expand (w : Walk ν) (mandatory : Bool) (edges : List (Edge ν)) :
    Walk ν :=
  edges.foldl (fun w e => w.mark (mandatory && !e.optional) e.target) w

@[simp] theorem Walk.expand_nil (w : Walk ν) (mandatory : Bool) :
    w.expand mandatory [] = w := rfl

@[simp] theorem Walk.expand_cons (w : Walk ν) (mandatory : Bool) (e : Edge ν)
    (edges : List (Edge ν)) : w.expand mandatory (e :: edges) =
      (w.mark (mandatory && !e.optional) e.target).expand mandatory edges :=
  rfl

/-- What following edges changes. -/
structure Expanded (w : Walk ν) (mandatory : Bool) (edges : List (Edge ν))
    (w' : Walk ν) : Prop where
  visited : ∀ x, x ∈ w'.visited ↔
    x ∈ w.visited ∨ ∃ e ∈ edges, e.target = x
  required : ∀ x, x ∈ w'.required ↔ x ∈ w.required ∨
    mandatory = true ∧ ∃ e ∈ edges, e.optional = false ∧ e.target = x
  kept : w.pending ⊆ w'.pending
  pending : ∀ p ∈ w'.pending, p ∈ w.pending ∨
    p.1 ∈ w'.visited ∧ (p.2 = true → p.1 ∈ w'.required)
  opened : ∀ x ∈ w'.visited, x ∈ w.visited ∨ ∃ m, (x, m) ∈ w'.pending
  raised : ∀ x ∈ w'.required, x ∈ w.required ∨ (x, true) ∈ w'.pending

theorem expanded_mark (w : Walk ν) (mandatory : Bool) (e : Edge ν) :
    Expanded w mandatory [e]
      (w.mark (mandatory && !e.optional) e.target) := by
  have hNeeded : (mandatory && !e.optional) = true ↔
      mandatory = true ∧ e.optional = false := by
    rw [Bool.and_eq_true, Bool.not_eq_true']
  generalize (mandatory && !e.optional) = needed at hNeeded
  unfold Walk.mark
  by_cases hSkip : e.target ∈ w.visited ∧
      (needed = false ∨ e.target ∈ w.required)
  · rw [if_pos hSkip]
    refine ⟨fun x => ?_, fun x => ?_, fun p hp => hp, fun p hp => .inl hp,
      fun x hx => .inl hx, fun x hx => .inl hx⟩
    · constructor
      · exact Or.inl
      · rintro (hMem | ⟨e', he, rfl⟩)
        · exact hMem
        · rw [List.mem_singleton.mp he]
          exact hSkip.1
    · constructor
      · exact Or.inl
      · rintro (hMem | ⟨hMandatory, e', he, hOptional, rfl⟩)
        · exact hMem
        · rw [List.mem_singleton.mp he] at hOptional ⊢
          rcases hSkip.2 with hFalse | hMem
          · rw [hNeeded.mpr ⟨hMandatory, hOptional⟩] at hFalse
            cases hFalse
          · exact hMem
  · rw [if_neg hSkip]
    refine ⟨fun x => ?_, fun x => ?_, fun p hp => List.mem_cons_of_mem _ hp,
      fun p hp => ?_, fun x hx => ?_, fun x hx => ?_⟩
    · rw [mem_add]
      refine or_congr_right ⟨?_, ?_⟩
      · rintro rfl
        exact ⟨e, List.mem_singleton_self e, rfl⟩
      · rintro ⟨e', he, rfl⟩
        rw [List.mem_singleton.mp he]
    · cases hFlag : needed with
      | false =>
          have hNot : ¬(mandatory = true ∧ e.optional = false) := fun h => by
            rw [hNeeded.mpr h] at hFlag
            cases hFlag
          constructor
          · exact Or.inl
          · rintro (hMem | ⟨hMandatory, e', he, hOptional, -⟩)
            · exact hMem
            · rw [List.mem_singleton.mp he] at hOptional
              exact absurd ⟨hMandatory, hOptional⟩ hNot
      | true =>
          obtain ⟨hMandatory, hOptional⟩ := hNeeded.mp hFlag
          rw [if_pos rfl, mem_add]
          refine or_congr_right ⟨?_, ?_⟩
          · rintro rfl
            exact ⟨hMandatory, e, List.mem_singleton_self e, hOptional, rfl⟩
          · rintro ⟨-, e', he, -, rfl⟩
            rw [List.mem_singleton.mp he]
    · rcases List.mem_cons.mp hp with rfl | hOld
      · refine .inr ⟨mem_add.mpr (.inr rfl), fun hFlag => ?_⟩
        dsimp only at hFlag ⊢
        rw [if_pos hFlag]
        exact mem_add.mpr (.inr rfl)
      · exact .inl hOld
    · rcases mem_add.mp hx with hOld | rfl
      · exact .inl hOld
      · exact .inr ⟨needed, List.mem_cons_self⟩
    · cases hFlag : needed with
      | false =>
          rw [hFlag] at hx
          exact .inl hx
      | true =>
          rw [hFlag] at hx
          rcases mem_add.mp hx with hOld | rfl
          · exact .inl hOld
          · exact .inr List.mem_cons_self

theorem Expanded.trans {w w' w'' : Walk ν} {mandatory : Bool} {e : Edge ν}
    {edges : List (Edge ν)} (h : Expanded w mandatory [e] w')
    (h' : Expanded w' mandatory edges w'') :
    Expanded w mandatory (e :: edges) w'' := by
  refine ⟨fun x => ?_, fun x => ?_, List.Subset.trans h.kept h'.kept, fun p hp => ?_,
    fun x hx => ?_, fun x hx => ?_⟩
  · rw [h'.visited, h.visited]
    simp [or_assoc]
  · rw [h'.required, h.required]
    simp only [List.mem_cons, exists_eq_or_imp]
    tauto
  · rcases h'.pending p hp with hMid | hNew
    · rcases h.pending p hMid with hOld | ⟨hVisited, hRequired⟩
      · exact .inl hOld
      · exact .inr ⟨(h'.visited _).mpr (.inl hVisited),
          fun hFlag => (h'.required _).mpr (.inl (hRequired hFlag))⟩
    · exact .inr hNew
  · rcases h'.opened x hx with hMid | hNew
    · rcases h.opened x hMid with hOld | ⟨m, hm⟩
      · exact .inl hOld
      · exact .inr ⟨m, h'.kept hm⟩
    · exact .inr hNew
  · rcases h'.raised x hx with hMid | hNew
    · rcases h.raised x hMid with hOld | hm
      · exact .inl hOld
      · exact .inr (h'.kept hm)
    · exact .inr hNew

theorem expanded_expand (w : Walk ν) (mandatory : Bool)
    (edges : List (Edge ν)) :
    Expanded w mandatory edges (w.expand mandatory edges) := by
  induction edges generalizing w with
  | nil =>
      exact ⟨by simp, by simp, fun p hp => hp, fun p hp => .inl hp,
        fun x hx => .inl hx, fun x hx => .inl hx⟩
  | cons e edges ih =>
      rw [Walk.expand_cons]
      exact (expanded_mark w mandatory e).trans (ih _)

/-! ## The invariant is kept -/

/-- Following the edges of the popped node keeps the invariant. -/
theorem Invariant.expand {w : Walk ν} (h : Invariant edges start w) {v : ν}
    {mandatory : Bool} {rest : List (ν × Bool)}
    (hPending : w.pending = (v, mandatory) :: rest) :
    Invariant edges start
      (({ w with pending := rest } : Walk ν).expand mandatory (edges v)) := by
  have hStep := expanded_expand { w with pending := rest } mandatory (edges v)
  generalize ({ w with pending := rest } : Walk ν).expand mandatory
    (edges v) = w' at hStep ⊢
  have hPopped : (v, mandatory) ∈ w.pending := by
    rw [hPending]
    exact List.mem_cons_self
  obtain ⟨hNode, hFlag⟩ := h.pending _ hPopped
  have hRest : ∀ p ∈ w.pending, p = (v, mandatory) ∨ p ∈ w'.pending := by
    intro p hp
    rw [hPending] at hp
    rcases List.mem_cons.mp hp with hEq | hMem
    · exact .inl hEq
    · exact .inr (hStep.kept hMem)
  have hOld : ∀ p ∈ rest, p ∈ w.pending := fun p hp => by
    rw [hPending]
    exact List.mem_cons_of_mem _ hp
  refine ⟨fun x hx => ?_, fun x hx => ?_, fun p hp => ?_, fun x hx => ?_,
    fun x hx => ?_⟩
  · rcases (hStep.visited x).mp hx with hMem | ⟨e, he, rfl⟩
    · exact h.visited x hMem
    · rcases hNode with rfl | hVisited
      · exact .first he
      · exact .step (h.visited v hVisited) he
  · rcases (hStep.required x).mp hx with hMem | ⟨hMandatory, e, he, hOpt, rfl⟩
    · exact ⟨(hStep.visited x).mpr (.inl (h.required x hMem).1),
        (h.required x hMem).2⟩
    · refine ⟨(hStep.visited _).mpr (.inr ⟨e, he, rfl⟩), ?_⟩
      rcases hFlag hMandatory with rfl | hRequired
      · exact .first he hOpt
      · exact .step (h.required v hRequired).2 he hOpt
  · rcases hStep.pending p hp with hMem | ⟨hVisited, hRequired⟩
    · obtain ⟨hAt, hAtFlag⟩ := h.pending p (hOld p hMem)
      exact ⟨hAt.imp_right fun hIn => (hStep.visited _).mpr (.inl hIn),
        fun hTrue => (hAtFlag hTrue).imp_right fun hIn =>
          (hStep.required _).mpr (.inl hIn)⟩
    · exact ⟨.inr hVisited, fun hTrue => .inr (hRequired hTrue)⟩
  · -- the popped node is expanded now; the others wait, or were expanded
    by_cases hSelf : x = v
    · rw [hSelf]
      exact .inr fun e he => (hStep.visited _).mpr (.inr ⟨e, he, rfl⟩)
    · have hBefore : x = start ∨ x ∈ w.visited ∨ ∃ m, (x, m) ∈ w'.pending := by
        rcases hx with hStart | hMem
        · exact .inl hStart
        · exact .inr (hStep.opened x hMem)
      rcases hBefore with hStart | hVisited | hWaits
      · rcases h.reached x (.inl hStart) with ⟨m, hm⟩ | hAll
        · rcases hRest _ hm with hEq | hMem
          · exact absurd (congrArg Prod.fst hEq) hSelf
          · exact .inl ⟨m, hMem⟩
        · exact .inr fun e he => (hStep.visited _).mpr (.inl (hAll e he))
      · rcases h.reached x (.inr hVisited) with ⟨m, hm⟩ | hAll
        · rcases hRest _ hm with hEq | hMem
          · exact absurd (congrArg Prod.fst hEq) hSelf
          · exact .inl ⟨m, hMem⟩
        · exact .inr fun e he => (hStep.visited _).mpr (.inl (hAll e he))
      · exact .inl hWaits
  · have hBefore : (x = start ∨ x ∈ w.required) ∨ (x, true) ∈ w'.pending := by
      rcases hx with hStart | hMem
      · exact .inl (.inl hStart)
      · rcases hStep.raised x hMem with hIn | hWaits
        · exact .inl (.inr hIn)
        · exact .inr hWaits
    rcases hBefore with hIn | hWaits
    · rcases h.needed x hIn with hm | hAll
      · rcases hRest _ hm with hEq | hMem
        · -- it was popped as a required node
          obtain ⟨rfl, rfl⟩ := Prod.mk.inj hEq
          exact .inr fun e he hOpt =>
            (hStep.required _).mpr (.inr ⟨rfl, e, he, hOpt, rfl⟩)
        · exact .inl hMem
      · exact .inr fun e he hOpt =>
          (hStep.required _).mpr (.inl (hAll e he hOpt))
    · exact .inl hWaits

/-! ## The end of a walk -/

/-- A node that is put on the pending list is new among the visited or among
the required ones. -/
theorem length_mark_le (w : Walk ν) (needed : Bool) (target : ν) :
    (w.mark needed target).pending.length + w.visited.length +
        w.required.length ≤
      w.pending.length + (w.mark needed target).visited.length +
        (w.mark needed target).required.length := by
  unfold Walk.mark
  by_cases hSkip : target ∈ w.visited ∧
      (needed = false ∨ target ∈ w.required)
  · rw [if_pos hSkip]
  · rw [if_neg hSkip]
    dsimp only
    rw [List.length_cons]
    by_cases hVisited : target ∈ w.visited
    · have hNew : needed = true ∧ target ∉ w.required := by
        constructor
        · by_contra hFlag
          exact hSkip ⟨hVisited, .inl (Bool.not_eq_true _ ▸ hFlag)⟩
        · exact fun hMem => hSkip ⟨hVisited, .inr hMem⟩
      rw [if_pos hNew.1, length_add_of_notMem hNew.2,
        length_add_of_mem hVisited]
      omega
    · rw [length_add_of_notMem hVisited]
      have hRequired : w.required.length ≤
          (if needed then add w.required target else w.required).length := by
        by_cases hFlag : needed = true
        · rw [if_pos hFlag]
          exact length_le_add _ _
        · exact (congrArg List.length (if_neg hFlag)).ge
      omega

theorem length_expand_le (w : Walk ν) (mandatory : Bool)
    (edges : List (Edge ν)) :
    (w.expand mandatory edges).pending.length + w.visited.length +
        w.required.length ≤
      w.pending.length + (w.expand mandatory edges).visited.length +
        (w.expand mandatory edges).required.length := by
  induction edges generalizing w with
  | nil => exact le_rfl
  | cons e edges ih =>
      have hFirst := length_mark_le w (mandatory && !e.optional) e.target
      have hRest := ih (w.mark (mandatory && !e.optional) e.target)
      rw [Walk.expand_cons]
      omega

/-- The sets of a walk hold a node once. -/
theorem nodup_expand {w : Walk ν}
    (h : w.visited.Nodup ∧ w.required.Nodup) (mandatory : Bool)
    (edges : List (Edge ν)) :
    (w.expand mandatory edges).visited.Nodup ∧
      (w.expand mandatory edges).required.Nodup := by
  induction edges generalizing w with
  | nil => exact h
  | cons e edges ih =>
      rw [Walk.expand_cons]
      refine ih ?_
      unfold Walk.mark
      split
      · exact h
      · refine ⟨nodup_add h.1 _, ?_⟩
        dsimp only
        split
        · exact nodup_add h.2 _
        · exact h.2

end OpenApe.Verified.Worklist
