import FormLogic.Answers
import FormLogic.Value.Text

namespace FormLogic.Formula

/-- The place of a field in a formula. -/
def placeholder (id : String) : List Char := '$' :: '{' :: id.toList ++ ['}']

def replaceFrom (pattern new : List Char) : Nat → List Char → List Char
  | _, [] => []
  | skip + 1, _ :: cs => replaceFrom pattern new skip cs
  | 0, c :: cs =>
    if pattern.isPrefixOf (c :: cs) then
      new ++ replaceFrom pattern new (pattern.length - 1) cs
    else c :: replaceFrom pattern new 0 cs

/-- Replaces every occurrence of a pattern, the leftmost first; a replaced part is not searched
again. -/
def replaceAll (pattern new cs : List Char) : List Char := replaceFrom pattern new 0 cs

theorem replaceFrom_eq_drop (pattern new : List Char) (skip : Nat) (cs : List Char) :
    replaceFrom pattern new skip cs = replaceAll pattern new (cs.drop skip) := by
  unfold replaceAll
  induction cs generalizing skip with
  | nil => cases skip <;> rfl
  | cons c cs ih =>
    cases skip with
    | zero => rfl
    | succ skip => exact ih skip

def fillIn (answers : Answers) (template : List Char) (id : String) : List Char :=
  replaceAll (placeholder id) (answers.get id).toText.toList template

/-- Puts the answers to some fields into a formula, one field after the other. -/
def substitute (formula : String) (parents : List String) (answers : Answers) : String :=
  String.ofList (parents.foldl (fillIn answers) formula.toList)

end FormLogic.Formula
