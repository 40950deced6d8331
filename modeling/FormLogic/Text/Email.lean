import FormLogic.Text.Pattern

namespace FormLogic.Text.Email

/-- Latin letters of either case, and the four characters whose other case is a Latin letter. -/
def isLetter (c : Char) : Bool :=
  c.isAlpha || c.toNat == 0x130 || c.toNat == 0x131 || c.toNat == 0x17F || c.toNat == 0x212A

def isLetterOrDigit (c : Char) : Bool := isLetter c || c.isDigit

def isLocalEnd (c : Char) : Bool := isLetterOrDigit c || c == '_' || c == '+' || c == '-'

def isLocal (c : Char) : Bool := isLocalEnd c || c == '\x27' || c == '.'

def isLabelChar (c : Char) : Bool := isLetterOrDigit c || c == '-'

def label : Pattern := .oneOf isLetterOrDigit ++ .manyOf isLabelChar ++ .char '.'

def parts : Pattern :=
  .manyOf isLocal ++ .oneOf isLocalEnd ++ .char '@' ++
    (label ++ .many label ++ .atLeast 2 isLetter)

def twoDots : Pattern := .anyChars ++ (.char '.' ++ .char '.')

/-- An address does not start with a dot and has no two dots side by side. -/
def pattern : Pattern :=
  .notAhead (.char '.') ++ (.notAhead twoDots ++ (parts ++ .textEnd))

def isAddress (s : String) : Bool := pattern.isWholeText s

end FormLogic.Text.Email
