/-
Which known word was probably meant by an unknown one.

Two words are alike to the extent that they share letters at about the
same places: a letter of one is matched with an equal letter of the
other not far from it, and matched letters that come in another order
count less. The measure is a fraction from 0 to 1, compared exactly.
-/

namespace TreeCheck.Similarity

/-- A fraction of naturals. -/
structure Degree where
  num : Nat
  den : Nat
deriving DecidableEq, Repr

/-- The order of fractions. -/
def Degree.le (x y : Degree) : Bool := x.num * y.den ≤ y.num * x.den

/-- The first place in a word, within reach of place `i` and not yet
taken, that holds a letter. -/
def partner? (reach : Nat) (word : List Char) (taken : List Nat) (i : Nat) (c : Char) :
    Option Nat :=
  (word.zipIdx.find? fun (d, j) =>
    d = c && i ≤ j + reach && j ≤ i + reach && !taken.contains j).map (·.2)

/-- The letters, from place `i` on, that find a partner in another word,
each with the place of its partner. -/
def shared (reach : Nat) (word : List Char) (taken : List Nat) (i : Nat) :
    List Char → List (Char × Nat)
  | [] => []
  | c :: cs =>
    match partner? reach word taken i c with
    | some j => (c, j) :: shared reach word (j :: taken) (i + 1) cs
    | none => shared reach word taken (i + 1) cs

/-- How many letters stand elsewhere among the shared letters of the one
word than among those of the other, counted in pairs. -/
def transposed (pairs : List (Char × Nat)) : Nat :=
  let there := pairs.mergeSort fun p q => p.2 ≤ q.2
  (pairs.zip there).countP (fun (p, q) => p.1 != q.1) / 2

/-- How alike two words are: the mean of the share of shared letters in
each word and of the share of those that keep their order. -/
def degree (a b : List Char) : Degree :=
  let pairs := shared (max a.length b.length / 2 - 1) b [] 0 a
  let m := pairs.length
  if m = 0 then ⟨0, 1⟩
  else
    ⟨m * m * b.length + m * m * a.length + (m - transposed pairs) * a.length * b.length,
      3 * a.length * b.length * m⟩

/-- How alike a word must be to one that was meant. -/
def threshold : Degree := ⟨7, 10⟩

/-- The known word most like a given one, if there is one like it. Of
several equally alike it is the last. -/
def closest? (word : String) (known : List String) : Option String :=
  let degreeOf (w : String) : Degree := degree word.toList w.toList
  (known.filter fun w => threshold.le (degreeOf w)).foldl (fun best w =>
    match best with
    | some b => if (degreeOf b).le (degreeOf w) then some w else some b
    | none => some w) none

end TreeCheck.Similarity
