import OpenApe.Verified.Separators

/-!
# Lines from a buffer

A reader that gets its text in pieces keeps what follows the last separator in
a buffer, and hands every line before it to a step that may throw.  However
the text is cut, the steps are those of the lines of the whole text
(`drain_append`, `drain_eq`), and the buffer ends up with the last, unfinished
line.
-/

namespace OpenApe.Verified.LineBuffer

open Separators

variable {α σ ε : Type} [DecidableEq α]

/-- What stands behind the first separator. -/
def behind (c : α) (buffer : List α) : List α :=
  (buffer.dropWhile (· != c)).drop 1

theorem length_behind_lt {c : α} {buffer : List α} (h : c ∈ buffer) :
    (behind c buffer).length < buffer.length := by
  have hLength := congrArg List.length (append_at_separator h)
  rw [List.length_append, List.length_cons] at hLength
  unfold behind
  omega

/-- Takes line after line out of the buffer. -/
def drain (c : α) (f : σ → List α → Except ε σ) (s : σ) (buffer : List α) :
    Except ε (σ × List α) :=
  if _h : c ∈ buffer then
    match f s (buffer.takeWhile (· != c)) with
    | .error e => .error e
    | .ok s => drain c f s (behind c buffer)
  else .ok (s, buffer)
termination_by buffer.length
decreasing_by exact length_behind_lt _h

/-- One more piece of text. -/
def feed (c : α) (f : σ → List α → Except ε σ) (s : σ × List α)
    (text : List α) : Except ε (σ × List α) := drain c f s.1 (s.2 ++ text)

variable {c : α} {f : σ → List α → Except ε σ}

theorem drain_of_mem {s : σ} {buffer : List α} (h : c ∈ buffer) :
    drain c f s buffer = (f s (buffer.takeWhile (· != c))).bind
      fun s => drain c f s (behind c buffer) := by
  rw [drain, dif_pos h]
  cases f s (buffer.takeWhile (· != c)) <;> rfl

theorem drain_of_not_mem {s : σ} {buffer : List α} (h : c ∉ buffer) :
    drain c f s buffer = .ok (s, buffer) := by
  rw [drain, dif_neg h]

theorem takeWhile_append_of_mem {buffer : List α} (h : c ∈ buffer)
    (more : List α) :
    (buffer ++ more).takeWhile (· != c) = buffer.takeWhile (· != c) := by
  rw [List.takeWhile_append, if_neg]
  intro hLength
  have hSame : buffer.takeWhile (· != c) = buffer :=
    (List.takeWhile_prefix _).eq_of_length hLength
  exact takeWhile_eq_self.mp hSame h

theorem behind_append_of_mem {buffer : List α} (h : c ∈ buffer)
    (more : List α) : behind c (buffer ++ more) = behind c buffer ++ more := by
  have hBoth := append_at_separator (List.mem_append_left more h)
  rw [takeWhile_append_of_mem h] at hBoth
  have hText : buffer.takeWhile (· != c) ++ c :: (behind c buffer ++ more) =
      buffer ++ more := by
    rw [← List.cons_append, ← List.append_assoc, behind, append_at_separator h]
  have hSame := List.append_cancel_left (hBoth.trans hText.symm)
  exact (List.cons.inj hSame).2

/-- The lines of a longer text start with the lines of the text. -/
theorem drain_append (s : σ) (buffer more : List α) :
    drain c f s (buffer ++ more) =
      (drain c f s buffer).bind (fun t => feed c f t more) := by
  induction s, buffer using drain.induct c f with
  | case1 s buffer h e hError =>
      rw [drain_of_mem (List.mem_append_left more h), drain_of_mem h,
        takeWhile_append_of_mem h, hError]
      rfl
  | case2 s buffer h t hStep ih =>
      rw [drain_of_mem (List.mem_append_left more h), drain_of_mem h,
        takeWhile_append_of_mem h, hStep, behind_append_of_mem h]
      exact ih
  | case3 s buffer h =>
      rw [drain_of_not_mem h]
      rfl

/-- No separator is left in the buffer. -/
theorem not_mem_of_drain {s t : σ} {buffer rest : List α}
    (h : drain c f s buffer = .ok (t, rest)) : c ∉ rest := by
  induction s, buffer using drain.induct c f with
  | case1 s buffer hMem e hError =>
      rw [drain_of_mem hMem, hError] at h
      cases h
  | case2 s buffer hMem u hStep ih =>
      rw [drain_of_mem hMem, hStep] at h
      exact ih h
  | case3 s buffer hFree =>
      rw [drain_of_not_mem hFree] at h
      cases h
      exact hFree

theorem splitOn_of_mem {text : List α} (h : c ∈ text) :
    text.splitOn c =
      text.takeWhile (· != c) :: (behind c text).splitOn c := by
  rw [splitOn_eq]
  cases hRest : text.dropWhile (· != c) with
  | nil =>
      have hSame := List.takeWhile_append_dropWhile (p := (· != c)) (l := text)
      rw [hRest, List.append_nil] at hSame
      exact absurd h (takeWhile_eq_self.mp hSame)
  | cons u rest =>
      rw [behind, hRest]
      rfl

/-- Draining takes the steps of all lines but the last one. -/
theorem drain_eq (s : σ) (text : List α) :
    drain c f s text = ((text.splitOn c).dropLast.foldlM f s).bind
      fun t => .ok (t, (text.splitOn c).getLastD []) := by
  induction s, text using drain.induct c f with
  | case1 s buffer h e hError =>
      have hMore : (behind c buffer).splitOn c ≠ [] := List.splitOn_ne_nil _ _
      rw [drain_of_mem h, splitOn_of_mem h,
        List.dropLast_cons_of_ne_nil hMore, List.foldlM_cons, hError]
      rfl
  | case2 s buffer h t hStep ih =>
      obtain ⟨first, lines, hLines⟩ :=
        List.exists_cons_of_ne_nil (List.splitOn_ne_nil c (behind c buffer))
      rw [hLines] at ih
      rw [drain_of_mem h, splitOn_of_mem h, hLines,
        List.dropLast_cons_of_ne_nil (List.cons_ne_nil _ _),
        List.foldlM_cons, hStep]
      exact ih
  | case3 s buffer h =>
      rw [drain_of_not_mem h, List.splitOn_eq_singleton h]
      rfl

/-- What follows the last line changes only that line. -/
theorem dropLast_splitOn_append {text more : List α} (h : c ∉ more) :
    ((text ++ more).splitOn c).dropLast = (text.splitOn c).dropLast := by
  induction hLength : text.length using Nat.strongRecOn generalizing text with
  | _ n ih =>
      by_cases hMem : c ∈ text
      · have hMore : (behind c text).splitOn c ≠ [] :=
          List.splitOn_ne_nil _ _
        have hMore' : (behind c text ++ more).splitOn c ≠ [] :=
          List.splitOn_ne_nil _ _
        have hShorter := length_behind_lt hMem
        rw [splitOn_of_mem (List.mem_append_left more hMem),
          splitOn_of_mem hMem, takeWhile_append_of_mem hMem,
          behind_append_of_mem hMem, List.dropLast_cons_of_ne_nil hMore,
          List.dropLast_cons_of_ne_nil hMore',
          ih _ (hLength ▸ hShorter) rfl]
      · have hNone : c ∉ text ++ more := fun hBoth =>
          (List.mem_append.mp hBoth).elim hMem h
        rw [List.splitOn_eq_singleton hMem, List.splitOn_eq_singleton hNone]
        rfl

end OpenApe.Verified.LineBuffer
