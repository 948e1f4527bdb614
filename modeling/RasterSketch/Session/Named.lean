import RasterSketch.Text.Basic
/-!
# Values under names

What a session keeps: values under names, a later one in the place of an earlier one of the same
name (`find?_set`), and the run of a session step by step.
-/

namespace RasterSketch

structure Named (α : Type) where
  entries : List (Text × α)

namespace Named

variable {α : Type}

def empty : Named α := ⟨[]⟩

def find? (n : Named α) (name : Text) : Option α :=
  (n.entries.find? (·.1 = name)).map (·.2)

/-- The entries with one set, in its place or behind the others. -/
def setIn (name : Text) (a : α) : List (Text × α) → List (Text × α)
  | [] => [(name, a)]
  | e :: es => if e.1 = name then (name, a) :: es else e :: setIn name a es

def set (n : Named α) (name : Text) (a : α) : Named α := ⟨setIn name a n.entries⟩

/-- A value is found under its name, and no other is disturbed. -/
theorem find?_set (n : Named α) (name other : Text) (a : α) :
    (n.set name a).find? other = if other = name then some a else n.find? other := by
  obtain ⟨es⟩ := n
  simp only [set, find?]
  induction es with
  | nil =>
    by_cases h : other = name
    · simp [setIn, h]
    · simp [setIn, h, Ne.symm h]
  | cons e es ih =>
    by_cases he : e.1 = name
    · by_cases h : other = name
      · simp [setIn, he, h]
      · simp [setIn, he, h, Ne.symm h]
    · by_cases h : e.1 = other
      · have hn : other ≠ name := h ▸ he
        simp [setIn, h, hn]
      · simpa [setIn, he, h] using ih

end Named

/-- Where the steps of a session lead, and their answers in order. -/
def runSession {σ ι α : Type} (step : σ → ι → σ × α) : σ → List ι → σ × List α
  | s, [] => (s, [])
  | s, i :: is =>
    let (s', a) := step s i
    let (last, as) := runSession step s' is
    (last, a :: as)

theorem runSession_append {σ ι α : Type} (step : σ → ι → σ × α) (s : σ) (is js : List ι) :
    runSession step s (is ++ js) =
      ((runSession step (runSession step s is).1 js).1,
        (runSession step s is).2 ++ (runSession step (runSession step s is).1 js).2) := by
  induction is generalizing s with
  | nil => rfl
  | cons i is ih => simp [runSession, ih]

end RasterSketch
