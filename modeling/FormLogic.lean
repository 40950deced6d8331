import FormLogic.Session
import FormLogic.Proofs.Binary64.Decimal
import FormLogic.Proofs.Except
import FormLogic.Proofs.Validation.Compile
import FormLogic.Proofs.Formula.Numeral
import FormLogic.Proofs.Formula.Tree
import FormLogic.Proofs.Answers
import FormLogic.Proofs.Derived.AnswerText
import FormLogic.Proofs.Derived.Custom
import FormLogic.Proofs.Schema.Basic
import FormLogic.Proofs.Schema.Sync
import FormLogic.Proofs.Schema.Validation
import FormLogic.Proofs.Schema.Compile
import FormLogic.Proofs.Formula.Reading
import FormLogic.Proofs.Schema.Settled
import FormLogic.Proofs.Schema.Edits
import FormLogic.Proofs.Binary64.Order
import FormLogic.Proofs.Validation.Interpretation
import FormLogic.Proofs.Value.Display
import FormLogic.Proofs.Derived.Value
import FormLogic.Proofs.Schema.Synced
import FormLogic.Proofs.Schema.Report
import FormLogic.Proofs.Keyed
import FormLogic.Proofs.Schema.Cleaned
import FormLogic.Proofs.Schema.Order
import FormLogic.Proofs.Schema.Strict
import FormLogic.Proofs.Calendar.Timestamp
import FormLogic.Proofs.Value.Plain
import FormLogic.Proofs.Definition.Entries
import FormLogic.Proofs.Definition.Roundtrip
import FormLogic.Proofs.Definition.Survival
import FormLogic.Proofs.Binary64.Magnitude
import FormLogic.Proofs.Binary64.Fewest
import FormLogic.Proofs.Binary64.BrowserText
import FormLogic.Proofs.Value.Literal
import FormLogic.Proofs.Literal
import FormLogic.Proofs.Schema.Pass
import FormLogic.Proofs.Formula.Splitting
import FormLogic.Proofs.Text.Pattern
import FormLogic.Proofs.Validation.TextTests
import FormLogic.Proofs.Derived.Filter
import FormLogic.Proofs.Calendar.Iso
import FormLogic.Proofs.Derived.BirthDate
import FormLogic.Proofs.Binary64.Exact
import FormLogic.Proofs.Derived.WholeSum
import FormLogic.Proofs.Validation.RuleOrder
import FormLogic.Proofs.Schema.Messages
import FormLogic.Proofs.Session
