import Ascent.Text.Case

/-!
Searching a text for the matches of a pattern.

A pattern looks at the characters from some place on and says what it finds there and how many
characters that takes. The searches go through the text from left to right; a match is never inside
another, and the characters of a match are passed over by count, so every search is structural in
the text (`findFrom_eq_drop`).

Main exports: `Pattern`, `Pattern.findAll`, `Pattern.first?`, `Pattern.erase`, `Pattern.split`.
-/

namespace Ascent.Text

/-- What is found at the head of the characters, and how many of them it takes. -/
abbrev Pattern (α : Type) := List Char → Option (α × Nat)

namespace Pattern

variable {α : Type}

/-- All matches after the first `skipped` characters. -/
def findFrom (p : Pattern α) (skipped : Nat) : List Char → List α
  | [] => []
  | c :: rest => match skipped with
    | n + 1 => findFrom p n rest
    | 0 => match p (c :: rest) with
      | some (a, size) => a :: findFrom p (size - 1) rest
      | none => findFrom p 0 rest

/-- All matches from left to right. -/
def findAll (p : Pattern α) (cs : List Char) : List α := findFrom p 0 cs

/-- The first match. -/
def first? (p : Pattern α) : List Char → Option α
  | [] => none
  | c :: rest => match p (c :: rest) with
    | some (a, _) => some a
    | none => first? p rest

/-- The text before the first match, or the whole of it where there is none. -/
def before (p : Pattern α) : List Char → List Char
  | [] => []
  | c :: rest => if (p (c :: rest)).isSome then [] else c :: before p rest

/-- The text after its first `skipped` characters with the matches there put out. -/
def eraseFrom (p : Pattern α) (skipped : Nat) : List Char → List Char
  | [] => []
  | c :: rest => match skipped with
    | n + 1 => eraseFrom p n rest
    | 0 => match p (c :: rest) with
      | some (_, size) => eraseFrom p (size - 1) rest
      | none => c :: eraseFrom p 0 rest

/-- The text without the matches. -/
def erase (p : Pattern α) (cs : List Char) : List Char := eraseFrom p 0 cs

/-- The pieces between the matches after the first `skipped` characters. -/
def splitFrom (p : Pattern α) (skipped : Nat) : List Char → List (List Char)
  | [] => [[]]
  | c :: rest => match skipped with
    | n + 1 => splitFrom p n rest
    | 0 => match p (c :: rest) with
      | some (_, size) => [] :: splitFrom p (size - 1) rest
      | none => match splitFrom p 0 rest with
        | [] => [[c]]
        | piece :: pieces => (c :: piece) :: pieces

/-- The pieces between the matches. -/
def split (p : Pattern α) (cs : List Char) : List (List Char) := splitFrom p 0 cs

theorem findFrom_eq_drop (p : Pattern α) (n : Nat) (cs : List Char) :
    findFrom p n cs = findAll p (cs.drop n) := by
  induction cs generalizing n with
  | nil => simp [findFrom, findAll]
  | cons c rest ih =>
    cases n with
    | zero => rfl
    | succ n => simpa [findFrom] using ih n

/-- What is found at the head of the characters is the first match, and the search goes on after
it. -/
theorem findAll_append_of_eq_some {p : Pattern α} {word rest : List Char} {a : α}
    (nonempty : word ≠ []) (found : p (word ++ rest) = some (a, word.length)) :
    findAll p (word ++ rest) = a :: findAll p rest := by
  cases word with
  | nil => exact absurd rfl nonempty
  | cons c word =>
    rw [List.cons_append] at found ⊢
    rw [findAll, findFrom, found]
    simp [findFrom_eq_drop]

/-- Characters at which nothing is found are passed over. -/
theorem findAll_append_of_eq_none {p : Pattern α} {cs : List Char} (rest : List Char)
    (barren : ∀ c ∈ cs, ∀ after, p (c :: after) = none) :
    findAll p (cs ++ rest) = findAll p rest := by
  induction cs with
  | nil => rfl
  | cons c cs ih =>
    have later := ih fun d member => barren d (List.mem_cons_of_mem c member)
    rw [List.cons_append, findAll, findFrom, barren c List.mem_cons_self]
    exact later

theorem eraseFrom_eq_drop (p : Pattern α) (n : Nat) (cs : List Char) :
    eraseFrom p n cs = erase p (cs.drop n) := by
  induction cs generalizing n with
  | nil => simp [eraseFrom, erase]
  | cons c rest ih =>
    cases n with
    | zero => rfl
    | succ n => simpa [eraseFrom] using ih n

end Pattern

/-- Whether a character is the given lower-case letter in some form: its lower case begins with the
letter or its upper case is the letter's. Other characters stand for themselves. -/
def isFormOf (letter c : Char) : Bool :=
  (lowerChar c).head? == some letter || upperChar c == [letter.toUpper]

/-- What follows `word`, where the characters begin with it in any case; `word` is in lower case. -/
def dropWord? : List Char → List Char → Option (List Char)
  | [], cs => some cs
  | _ :: _, [] => none
  | letter :: word, c :: cs => if isFormOf letter c then dropWord? word cs else none

end Ascent.Text
