import Mathlib.Data.List.Basic

/-!
# Path globs and what their wildcards read

A glob is a list of tokens: whole directories, any symbols, a run within one
name, one symbol of a name, or a symbol itself.  What each wildcard may read
is a parameter (`Wildcards`), so that two dialects are two values of one
definition.
-/

namespace OpenApe.Verified.PathGlob

variable {α β : Type*}

inductive Token (α : Type*) where
  | directories
  | anything
  | run
  | one
  | symbol (a : α)
  deriving DecidableEq

/-- The symbols that a glob gives a meaning to. -/
structure Signs (α : Type*) where
  star : α
  slash : α
  mark : α

section Tokens

variable [DecidableEq α]

/-- Reads a glob from its left end; two stars and a slash are one token. -/
def tokens (signs : Signs α) : List α → List (Token α)
  | [] => []
  | a :: rest =>
      if a = signs.star then
        match rest with
        | [] => [.run]
        | b :: after =>
            if b = signs.star then
              match after with
              | [] => [.anything]
              | c :: more =>
                  if c = signs.slash then .directories :: tokens signs more
                  else .anything :: tokens signs (c :: more)
            else .run :: tokens signs (b :: after)
      else if a = signs.mark then .one :: tokens signs rest
      else .symbol a :: tokens signs rest

variable {signs : Signs α}

theorem tokens_run {b : α} (h : b ≠ signs.star) (after : List α) :
    tokens signs (signs.star :: b :: after) =
      .run :: tokens signs (b :: after) := by
  rw [tokens.eq_def]
  simp [h]

theorem tokens_anything {c : α} (h : c ≠ signs.slash) (more : List α) :
    tokens signs (signs.star :: signs.star :: c :: more) =
      .anything :: tokens signs (c :: more) := by
  rw [tokens.eq_def]
  simp [h]

theorem tokens_directories (more : List α) :
    tokens signs (signs.star :: signs.star :: signs.slash :: more) =
      .directories :: tokens signs more := by
  rw [tokens.eq_def]
  simp

theorem tokens_one (h : signs.mark ≠ signs.star) (rest : List α) :
    tokens signs (signs.mark :: rest) = .one :: tokens signs rest := by
  rw [tokens.eq_def]
  simp [h]

theorem tokens_symbol {a : α} (hStar : a ≠ signs.star)
    (hMark : a ≠ signs.mark) (rest : List α) :
    tokens signs (a :: rest) = .symbol a :: tokens signs rest := by
  rw [tokens.eq_def]
  simp [hStar, hMark]

end Tokens

/-- What each wildcard may read. -/
structure Wildcards (α : Type*) where
  directories : List α → Prop
  anything : List α → Prop
  run : List α → Prop
  one : List α → Prop

def Wildcards.Token (w : Wildcards α) : Token α → List α → Prop
  | .directories => w.directories
  | .anything => w.anything
  | .run => w.run
  | .one => w.one
  | .symbol a => (· = [a])

/-- The tokens read the text, one after the other. -/
def Reads (w : Wildcards α) : List (Token α) → List α → Prop
  | [], s => s = []
  | t :: ts, s => ∃ x y, s = x ++ y ∧ w.Token t x ∧ Reads w ts y

/-! ## Directories -/

/-- Zero or more names, each with the slash behind it. -/
def WholeDirectories (slash : α) (s : List α) : Prop :=
  ∃ names : List (List α),
    (∀ name ∈ names, name ≠ [] ∧ slash ∉ name) ∧
      s = names.flatMap (· ++ [slash])

/-- The plain dialect: directories are whole, a run stays in its name. -/
def plain (slash : α) : Wildcards α where
  directories := WholeDirectories slash
  anything _ := True
  run s := slash ∉ s
  one s := ∃ a, s = [a] ∧ a ≠ slash

/-! ## Another alphabet -/

def Signs.map (f : α → β) (signs : Signs α) : Signs β :=
  ⟨f signs.star, f signs.slash, f signs.mark⟩

end OpenApe.Verified.PathGlob
