import Ascent.Text.Alphanumeric

/-!
Trimming, splitting and joining texts. The work is done on lists of characters, about which laws can
be stated; the functions on `String` are these between `toList` and `ofList`.

Main exports: `trim`, `trimChars`, `isBlankText`, `splitWhere`, `remove`.
-/

namespace Ascent.Text

/-- The characters without those at either end that satisfy `p`. -/
def trimWhere (p : Char → Bool) (cs : List Char) : List Char :=
  ((cs.dropWhile p).reverse.dropWhile p).reverse

/-- The characters without the blanks at either end. -/
def trimChars (cs : List Char) : List Char := trimWhere isBlank cs

/-- The text without the blanks at either end. -/
def trim (s : String) : String := String.ofList (trimChars s.toList)

/-- Whether nothing but blanks is written. -/
def isBlankText (s : String) : Bool := s.toList.all isBlank

/-- The pieces between the characters that satisfy `p`; one more than there are such characters. -/
def splitWhere (p : Char → Bool) : List Char → List (List Char)
  | [] => [[]]
  | c :: rest =>
    if p c then [] :: splitWhere p rest
    else match splitWhere p rest with
      | [] => [[c]]
      | piece :: pieces => (c :: piece) :: pieces

/-- The text without the characters that satisfy `p`. -/
def remove (p : Char → Bool) (s : String) : String := String.ofList (s.toList.filter (!p ·))

/-- The text with one character put for another. -/
def substitute (old new : Char) (s : String) : String :=
  String.ofList (s.toList.map fun c => if c = old then new else c)

/-- The pieces written one after another with `separator` between them. -/
def joinWith (separator : String) (pieces : List String) : String := separator.intercalate pieces

/-- What follows `start`, where the characters begin with it. -/
def dropStart? (start : List Char) (cs : List Char) : Option (List Char) :=
  if start.isPrefixOf cs then some (cs.drop start.length) else none

/-- Whether `part` stands somewhere in the characters. -/
def contains (part : List Char) : List Char → Bool
  | [] => part.isEmpty
  | c :: rest => part.isPrefixOf (c :: rest) || contains part rest

/-! ### Where a run of characters stops -/

section

variable {p : Char → Bool} {run rest : List Char}

theorem takeWhile_append_of_stop (all : ∀ c ∈ run, p c) (stop : ∀ c ∈ rest.head?, p c = false) :
    (run ++ rest).takeWhile p = run := by
  rw [List.takeWhile_append_of_pos all]
  cases rest with
  | nil => simp
  | cons c rest => simp [stop c rfl]

theorem dropWhile_append_of_stop (all : ∀ c ∈ run, p c) (stop : ∀ c ∈ rest.head?, p c = false) :
    (run ++ rest).dropWhile p = rest := by
  rw [List.dropWhile_append_of_pos all]
  cases rest with
  | nil => rfl
  | cons c rest => simp [stop c rfl]

theorem takeWhile_eq_nil_of_head {cs : List Char} (head : ∀ c ∈ cs.head?, p c = false) :
    cs.takeWhile p = [] :=
  @takeWhile_append_of_stop p [] cs (by simp) head

theorem dropWhile_eq_self_of_head {cs : List Char} (head : ∀ c ∈ cs.head?, p c = false) :
    cs.dropWhile p = cs :=
  @dropWhile_append_of_stop p [] cs (by simp) head

/-- Nothing is trimmed where neither end satisfies the condition. -/
theorem trimWhere_eq_self {cs : List Char} (first : ∀ c ∈ cs.head?, p c = false)
    (last : ∀ c ∈ cs.getLast?, p c = false) : trimWhere p cs = cs := by
  rw [trimWhere, dropWhile_eq_self_of_head first,
    dropWhile_eq_self_of_head (by rwa [List.head?_reverse]), List.reverse_reverse]

end

end Ascent.Text
