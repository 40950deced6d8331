import FormLogic.Field

namespace FormLogic

inductive Step where
  | key (name : String)
  | index (i : Nat)
  deriving DecidableEq, Repr

inductive Misfit where
  | derivationMissing (id : String)
  | derivationUnwanted (id : String)
  | choicesMissing (id : String) (type : FieldType)
  | choicesUnwanted (id : String) (type : FieldType)
  deriving DecidableEq, Repr

def Misfit.message : Misfit → String
  | .derivationMissing id => s!"Derived field '{id}' has no derivedConfig"
  | .derivationUnwanted id => s!"Field '{id}' has a derivedConfig but is not derived"
  | .choicesMissing id type => s!"Field '{id}' of type {type.name} needs options"
  | .choicesUnwanted id type => s!"Field '{id}' of type {type.name} cannot have options"

/-- What is wrong with a part of some data. Of a part that should be a truth value or a number,
a *form* is wrong where the text or number given does not denote one, and a *type* where
something else is given. -/
inductive FaultKind where
  | missing
  | textType
  | textEmpty
  | unknownName
  | boolType
  | boolForm
  | intType
  | intForm
  | intFraction
  | intNotFinite
  | intSize
  | floatType
  | floatForm
  | listType
  | objectType
  | recordType
  | timestampType
  | timestampForm
  | timestampRange
  | misfit (m : Misfit)
  deriving DecidableEq, Repr

def FaultKind.code : FaultKind → String
  | .missing => "missing"
  | .textType => "string_type"
  | .textEmpty => "string_too_short"
  | .unknownName => "enum"
  | .boolType => "bool_type"
  | .boolForm => "bool_parsing"
  | .intType => "int_type"
  | .intForm => "int_parsing"
  | .intFraction => "int_from_float"
  | .intNotFinite => "finite_number"
  | .intSize => "int_parsing_size"
  | .floatType => "float_type"
  | .floatForm => "float_parsing"
  | .listType => "list_type"
  | .objectType => "model_type"
  | .recordType => "dict_type"
  | .timestampType => "datetime_type"
  | .timestampForm => "datetime_from_date_parsing"
  | .timestampRange => "datetime_parsing"
  | .misfit _ => "value_error"

/-- The message with which a fault is reported, where the code does not say it all. -/
def FaultKind.message? : FaultKind → Option String
  | .misfit m => some ("Value error, " ++ m.message)
  | _ => none

structure Fault where
  path : List Step
  kind : FaultKind
  deriving DecidableEq, Repr

/-- What was read, or all faults that were found, in the order in which the parts are read. -/
inductive Checked (α : Type) where
  | ok (value : α)
  | faulty (faults : List Fault)

namespace Checked

variable {α β : Type}

def fault (kind : FaultKind) : Checked α := .faulty [⟨[], kind⟩]

/-- Applies what was read to what was read after it; the faults of both are collected. -/
def seq : Checked (α → β) → Checked α → Checked β
  | .ok f, .ok a => .ok (f a)
  | .ok _, .faulty es => .faulty es
  | .faulty es, .ok _ => .faulty es
  | .faulty es, .faulty es' => .faulty (es ++ es')

instance : Applicative Checked where
  pure := .ok
  seq f a := seq f (a ())

/-- Goes on only with what is free of faults. -/
def andThen (r : Checked α) (f : α → Checked β) : Checked β :=
  match r with
  | .ok a => f a
  | .faulty es => .faulty es

/-- Reads things one after the other, up to the first that is faulty. -/
def each (read : α → Checked β) : List α → Checked (List β)
  | [] => .ok []
  | a :: as => (read a).andThen fun b => (each read as).andThen fun bs => .ok (b :: bs)

def under (step : Step) : Checked α → Checked α
  | .ok a => .ok a
  | .faulty es => .faulty (es.map fun e => ⟨step :: e.path, e.kind⟩)

end Checked
end FormLogic
