import FormLogic.Text.Pattern

namespace FormLogic.Text.Password

def marks : List Char := ['@', '$', '!', '%', '*', '#', '?', '&']

def isPasswordChar (c : Char) : Bool := c.isAlphanum || marks.contains c

/-- Somewhere in the line there is a letter and somewhere a digit, and there are eight characters
or more. -/
def pattern : Pattern :=
  .ahead (.anyChars ++ .oneOf Char.isAlpha) ++
    (.ahead (.anyChars ++ .oneOf Char.isDigit) ++ (.atLeast 8 isPasswordChar ++ .textEnd))

def isStrong (s : String) : Bool := pattern.isWholeText s

end FormLogic.Text.Password
