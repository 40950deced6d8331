namespace FormLogic.Text

/-- Patterns are tried from the start of a text on. Repetitions take as much as they can, and give
back of it while what follows them fails. -/
inductive Pattern where
  | oneOf (p : Char → Bool)
  | manyOf (p : Char → Bool)
  /-- The end of the text, or the end of its last line. -/
  | textEnd
  | inTurn (first second : Pattern)
  | many (item : Pattern)
  /-- What has to follow; nothing is passed over. -/
  | ahead (p : Pattern)
  /-- What must not follow; nothing is passed over. -/
  | notAhead (p : Pattern)

namespace Pattern

instance : Append Pattern := ⟨.inTurn⟩

def char (c : Char) : Pattern := .oneOf (· == c)

/-- Any characters up to the end of the line. -/
def anyChars : Pattern := .manyOf (· != '\n')

def atLeast : Nat → (Char → Bool) → Pattern
  | 0, p => .manyOf p
  | n + 1, p => .oneOf p ++ atLeast n p

/-- Gives back characters, the last one first, until the rest of a text is as it has to be. -/
def giveBack (follows : List Char → Bool) : (taken rest : List Char) → Bool
  | [], rest => follows rest
  | c :: taken, rest => follows rest || giveBack follows taken (c :: rest)

/-- Passes over as many repetitions of an item as it can, a given number of them at most, so that
the rest of a text is as it has to be. -/
def repeats (item : (List Char → Bool) → List Char → Bool) (follows : List Char → Bool) :
    Nat → List Char → Bool
  | 0, cs => follows cs
  | n + 1, cs => item (repeats item follows n) cs || follows cs

/-- Whether a pattern can be passed over at the start of a text so that the rest of the text is as
it has to be. An item that takes something cannot be repeated more often than the text has
characters. -/
def passes : Pattern → (follows : List Char → Bool) → List Char → Bool
  | .oneOf _, _, [] => false
  | .oneOf p, follows, c :: cs => p c && follows cs
  | .manyOf p, follows, cs => giveBack follows (cs.takeWhile p).reverse (cs.dropWhile p)
  | .textEnd, follows, cs => (cs == [] || cs == ['\n']) && follows cs
  | .inTurn first second, follows, cs => first.passes (second.passes follows) cs
  | .many item, follows, cs => repeats item.passes follows cs.length cs
  | .ahead p, follows, cs => p.passes (fun _ => true) cs && follows cs
  | .notAhead p, follows, cs => !p.passes (fun _ => true) cs && follows cs

def startsText (p : Pattern) (s : String) : Bool := p.passes (fun _ => true) s.toList

def isWholeText (p : Pattern) (s : String) : Bool := p.passes List.isEmpty s.toList

end Pattern
end FormLogic.Text
