import FormLogic.Field
import FormLogic.Binary64.Text
import FormLogic.Text.Email
import FormLogic.Text.Password

namespace FormLogic

inductive Test where
  | minLength (bound : Binary64)
  | maxLength (bound : Binary64)
  | email
  | password
  | min (bound : Binary64)
  | max (bound : Binary64)
  deriving DecidableEq

namespace Test

def kind : Test → RuleKind
  | .minLength _ => .minLength
  | .maxLength _ => .maxLength
  | .email => .email
  | .password => .password
  | .min _ => .min
  | .max _ => .max

/-- Whether a value passes. Lengths count characters. A test on texts or numbers is not passed by
a value of another kind. -/
def holds : Test → Value → Bool
  | .minLength bound, .text s => bound.leCount s.length
  | .maxLength bound, .text s => Binary64.countLe s.length bound
  | .email, .text s => Text.Email.isAddress s
  | .password, .text s => Text.Password.isStrong s
  | .min bound, .float x => bound.le x
  | .max bound, .float x => x.le bound
  | _, _ => false

/-- The test of a rule, if it is a rule on values and has the value that it needs. -/
def ofRule? (rule : Rule) : Option Test :=
  match rule.kind, rule.value with
  | .minLength, some bound => some (.minLength bound)
  | .maxLength, some bound => some (.maxLength bound)
  | .email, _ => some .email
  | .password, _ => some .password
  | .min, some bound => some (.min bound)
  | .max, some bound => some (.max bound)
  | _, _ => none

def defaultMessage : Test → String
  | .minLength bound => s!"Must contain at least {bound.display} character(s)"
  | .maxLength bound => s!"Must contain at most {bound.display} character(s)"
  | .email => "Invalid email format"
  | .password => "Password must be at least 8 characters and contain a number"
  | .min bound => s!"Must be greater than or equal to {bound.display}"
  | .max bound => s!"Must be less than or equal to {bound.display}"

end Test

structure Check where
  test : Test
  message : String
  deriving DecidableEq

/-- The check of a rule on a field type. Rules that the type cannot apply, and rules without the
value that they need, are passed over. -/
def Check.ofRule? (type : FieldType) (rule : Rule) : Option Check :=
  if rule.kind.appliesTo type then
    (Test.ofRule? rule).map fun test => ⟨test, rule.ownMessage?.getD test.defaultMessage⟩
  else none

end FormLogic
